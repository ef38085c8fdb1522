import Vitae.Disk.Path
import Vitae.Log.Record

/-! What a command does, in order.

A `Job` is the list of a command's acts and how it ends. Acts before a stop stay done. -/

namespace Vitae.CommandLine

inductive Act where
  | record (r : Record)
  /-- A line of the answer. -/
  | print (text : String)
  /-- A line to the user, beside the answer. -/
  | report (text : String)
  /-- A file, with the directories on the way to it. -/
  | save (path : Path) (text : String)

inductive Stop where
  /-- The user was told why. -/
  | refused
  | crashed (f : Failure)

structure Job (α : Type) where
  acts : List Act
  result : Except Stop α

namespace Job

def andThen {α β : Type} (j : Job α) (f : α → Job β) : Job β :=
  match j.result with
  | .ok a =>
    let rest := f a
    ⟨j.acts ++ rest.acts, rest.result⟩
  | .error stop => ⟨j.acts, .error stop⟩

instance : Monad Job where
  pure a := ⟨[], .ok a⟩
  bind := andThen

def act (a : Act) : Job Unit := ⟨[a], .ok ()⟩

def print (text : String) : Job Unit := act (.print text)

def report (text : String) : Job Unit := act (.report text)

def crash {α : Type} (f : Failure) : Job α := ⟨[], .error (.crashed f)⟩

/-- A failure that no command tells of. -/
def ofExcept {α : Type} (x : Except Failure α) : Job α :=
  match x with
  | .ok a => ⟨[], .ok a⟩
  | .error f => .crash f

/-- Tells the user why the command ends here. -/
def refuse {α : Type} (lines : List String) : Job α := ⟨lines.map .report, .error .refused⟩

/-- Work that tells of a failure through `told`, or crashes on one. -/
def ofTraced {α : Type} (told : Failure → Option (List String)) (work : Traced α) : Job α :=
  let acts := work.log.map Act.record
  match work.result with
  | .ok a => ⟨acts, .ok a⟩
  | .error f =>
    match told f with
    | some lines => ⟨acts ++ lines.map .report, .error .refused⟩
    | none => ⟨acts, .error (.crashed f)⟩

@[simp] theorem result_pure {α : Type} (a : α) : (pure a : Job α).result = .ok a := rfl

@[simp] theorem result_bind {α β : Type} (j : Job α) (f : α → Job β) :
    (j >>= f).result = j.result.bind fun a => (f a).result := by
  show (andThen j f).result = _
  cases h : j.result <;> simp [andThen, h, Except.bind]

@[simp] theorem result_act (a : Act) : (act a).result = .ok () := rfl

@[simp] theorem result_report (text : String) : (report text).result = .ok () := rfl

end Job

end Vitae.CommandLine
