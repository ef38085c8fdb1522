import Vitae.Failure

/-! Log records, and results that come with the records written on the way.

`Traced` is the type of every operation that both can fail and has something to
report. Its `result` is what a caller acts on: `result_bind` says that the
records never influence it. Records written before a failure are kept. -/

namespace Vitae

inductive Level where
  | trace
  | debug
  | info
  | success
  | warning
  | error
  | critical
deriving DecidableEq, Repr

namespace Level

def all : List Level := [.trace, .debug, .info, .success, .warning, .error, .critical]

def name : Level → String
  | .trace => "TRACE"
  | .debug => "DEBUG"
  | .info => "INFO"
  | .success => "SUCCESS"
  | .warning => "WARNING"
  | .error => "ERROR"
  | .critical => "CRITICAL"

def severity : Level → Nat
  | .trace => 5
  | .debug => 10
  | .info => 20
  | .success => 25
  | .warning => 30
  | .error => 40
  | .critical => 50

def ofName? (name : String) : Option Level := all.find? fun l => l.name == name

end Level

structure Record where
  level : Level
  message : String
deriving DecidableEq, Repr

/-- The area of work that a record comes from, named at its start. -/
inductive Area where
  | schema
  | compile
  | theme

def Area.label : Area → String
  | .schema => "[schema] "
  | .compile => "[compile] "
  | .theme => "[theme] "

def Area.record (area : Area) (level : Level) (message : String) : Record :=
  ⟨level, area.label ++ message⟩

structure Traced (α : Type) where
  log : List Record
  result : Except Failure α

namespace Traced

def ok {α : Type} (x : α) : Traced α := ⟨[], .ok x⟩

def fail {α : Type} (f : Failure) : Traced α := ⟨[], .error f⟩

def tell (records : List Record) : Traced Unit := ⟨records, .ok ()⟩

def note (area : Area) (message : String) : Traced Unit := tell [area.record .debug message]

def ofExcept {α : Type} (x : Except Failure α) : Traced α := ⟨[], x⟩

/-- A misuse ends the work. -/
def lift {α : Type} (x : Except Misuse α) : Traced α := ⟨[], x.mapError .misuse⟩

def andThen {α β : Type} (x : Traced α) (f : α → Traced β) : Traced β :=
  match x.result with
  | .ok a =>
    let rest := f a
    ⟨x.log ++ rest.log, rest.result⟩
  | .error e => ⟨x.log, .error e⟩

instance : Monad Traced where
  pure := ok
  bind := andThen

@[simp] theorem result_pure {α : Type} (x : α) : (pure x : Traced α).result = .ok x := rfl

@[simp] theorem result_bind {α β : Type} (x : Traced α) (f : α → Traced β) :
    (x >>= f).result = x.result.bind fun a => (f a).result := by
  show (andThen x f).result = _
  cases h : x.result <;> simp [andThen, h, Except.bind]

/-- Work in sequence succeeds exactly when each part does, on what the one before gave. -/
theorem result_bind_eq_ok {α β : Type} {x : Traced α} {f : α → Traced β} {b : β} :
    (x >>= f).result = .ok b ↔ ∃ a, x.result = .ok a ∧ (f a).result = .ok b := by
  rw [result_bind]
  cases x.result <;> simp [Except.bind]

@[simp] theorem result_tell (records : List Record) : (tell records).result = .ok () := rfl

@[simp] theorem result_fail {α : Type} (f : Failure) : (fail f : Traced α).result = .error f := rfl

@[simp] theorem result_ofExcept {α : Type} (x : Except Failure α) : (ofExcept x).result = x := rfl

end Traced

end Vitae
