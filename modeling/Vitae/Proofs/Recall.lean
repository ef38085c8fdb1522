import Mathlib.Data.List.Basic
import Mathlib.Data.List.Induction
import Vitae.Theme.Store

/-! What a directory of themes remembers.

Themes are asked for while files come and go, and what is answered is told by the events before
(`Theme.Recalls`): the document that the first success since the directory was last cleared has
found on the disk, whatever has happened to the files after it, and before any success what the
disk holds now. That nothing was found leaves no trace. -/

namespace Vitae.Theme

/-! ### Runs -/

/-- A directory of themes, the disk that it is on, and the documents that it has handed out. No
answer reads `given`: documents are values, and what a caller makes of one that was handed out is
another one. That is all there is to `Event.alter`, which changes no answer for that reason. -/
structure World where
  themes : Directory
  disk : Disk
  given : List Value

inductive Event where
  | get (id : String)
  | isCached (id : String)
  | clear
  | write (file : Path) (content : Content)
  | delete (file : Path)
  /-- A caller changes a document that was handed out. -/
  | alter (place : Nat) (document : Value)

namespace World

/-- A directory of themes that was not asked for any yet. -/
def fresh (path : Path) (disk : Disk) : World := ⟨.ofPath path, disk, []⟩

/-- What is answered when a theme is asked for. -/
def answer (w : World) (id : String) : Except Failure (Option Value) :=
  (w.themes.get w.disk (.str id)).2.result

/-- The document that is handed out when a theme is asked for, if there is one. -/
def found? (w : World) (id : String) : Option Value := (w.answer id).toOption.join

/-- A change to a disk that fails leaves it as it is. -/
def step (w : World) : Event → World
  | .get id =>
    { w with themes := (w.themes.get w.disk (.str id)).1, given := w.given ++ (w.found? id).toList }
  | .isCached _ => w
  | .clear => { w with themes := w.themes.cleared }
  | .write file content => { w with disk := (w.disk.save file content).toOption.getD w.disk }
  | .delete file => { w with disk := (w.disk.delete file).toOption.getD w.disk }
  | .alter place document => { w with given := w.given.set place document }

def after (w : World) (events : List Event) : World := events.foldl step w

theorem after_concat (w : World) (past : List Event) (e : Event) :
    w.after (past ++ [e]) = (w.after past).step e := List.foldl_concat ..

end World

/-! ### What is to be answered -/

/-- What a disk holds under an identifier: the document of the first of two files that is there. To
look for a file can fail, and so can reading it. -/
inductive OnDisk (path : Path) (disk : Disk) (id : String) : Except Failure (Option Value) → Prop
  | yaml (h : disk.has (path.below (id ++ ".yaml")) = .ok true) :
      OnDisk path disk id ((disk.load (path.below (id ++ ".yaml"))).map some)
  | yml (hyaml : disk.has (path.below (id ++ ".yaml")) = .ok false)
      (h : disk.has (path.below (id ++ ".yml")) = .ok true) :
      OnDisk path disk id ((disk.load (path.below (id ++ ".yml"))).map some)
  | neither (hyaml : disk.has (path.below (id ++ ".yaml")) = .ok false)
      (h : disk.has (path.below (id ++ ".yml")) = .ok false) : OnDisk path disk id (.ok none)
  | lostYaml {f : DiskFault} (h : disk.has (path.below (id ++ ".yaml")) = .error f) :
      OnDisk path disk id (.error (.disk f))
  | lostYml {f : DiskFault} (hyaml : disk.has (path.below (id ++ ".yaml")) = .ok false)
      (h : disk.has (path.below (id ++ ".yml")) = .error f) : OnDisk path disk id (.error (.disk f))

variable {start w : World} {past before other : List Event} {e : Event} {id : String}
  {document : Value}

/-- A theme was asked for after the events `before` and found, and the directory was not cleared
since. -/
def Success (start : World) (past : List Event) (id : String) (before : List Event) : Prop :=
  ∃ since, past = before ++ .get id :: since ∧ .clear ∉ since ∧
    ∃ document, (start.after before).answer id = .ok (some document)

/-- The first such success. -/
def FirstSuccess (start : World) (past : List Event) (id : String) (before : List Event) : Prop :=
  Success start past id before ∧ ∀ other, Success start past id other → before.length ≤ other.length

/-- How the events since a start tell what is answered to who asks for a theme, and whether the
theme counts as read. -/
structure Recalls (start : World) (past : List Event) (id : String) : Prop where
  /-- The document of the first success is answered, as it was on the disk then. -/
  recalled : ∀ before, FirstSuccess start past id before → ∃ document,
    OnDisk start.themes.path (start.after before).disk id (.ok (some document)) ∧
      (start.after past).answer id = .ok (some document)
  /-- Without a success the disk is asked. -/
  current : (∀ before, ¬ FirstSuccess start past id before) →
    OnDisk start.themes.path (start.after past).disk id ((start.after past).answer id)
  cached : ∃ known, (start.after past).themes.isCached (.str id) = .ok known ∧
    (known = true ↔ ∃ before, Success start past id before)
  /-- Whoever asks for a theme in vain changes nothing. -/
  missed : (∀ document, (start.after past).answer id ≠ .ok (some document)) →
    (start.after past).step (.get id) = start.after past

/-! ### One event -/

namespace Directory

variable {d : Directory} {disk : Disk} {file : Path}

/-- A theme that was read is answered as it was read. -/
theorem get_of_cached (h : d.cached? (.str id) = some document) (disk : Disk) :
    d.get disk (.str id) = (d, pure (some document)) := by
  simp [get, Value.isKey, Value.key?, h]

theorem get_of_not_cached (h : d.cached? (.str id) = none) (disk : Disk) :
    d.get disk (.str id) = d.read disk (.str id) := by
  simp [get, Value.isKey, Value.key?, h]

theorem file?_str (d : Directory) (disk : Disk) (id : String) :
    d.file? disk (.str id) =
      firstOf disk [d.path.below (id ++ ".yaml"), d.path.below (id ++ ".yml")] := rfl

theorem result_read (h : d.file? disk (.str id) = .ok (some file)) :
    (d.read disk (.str id)).2.result = (disk.load file).map some := by
  unfold read
  rw [h]
  dsimp only
  cases disk.load file <;> rfl

/-- Reading answers what the disk holds. -/
theorem onDisk_read (d : Directory) (disk : Disk) (id : String) :
    OnDisk d.path disk id (d.read disk (.str id)).2.result := by
  have hfile := file?_str d disk id
  cases hyaml : disk.has (d.path.below (id ++ ".yaml")) with
  | error f =>
    simp only [firstOf, hyaml] at hfile
    unfold read
    rw [hfile]
    exact .lostYaml hyaml
  | ok there =>
    cases there with
    | true =>
      simp only [firstOf, hyaml] at hfile
      rw [result_read hfile]
      exact .yaml hyaml
    | false =>
      cases hyml : disk.has (d.path.below (id ++ ".yml")) with
      | error f =>
        simp only [firstOf, hyaml, hyml] at hfile
        unfold read
        rw [hfile]
        exact .lostYml hyaml hyml
      | ok there =>
        cases there with
        | true =>
          simp only [firstOf, hyaml, hyml] at hfile
          rw [result_read hfile]
          exact .yml hyaml hyml
        | false =>
          simp only [firstOf, hyaml, hyml] at hfile
          unfold read
          rw [hfile]
          exact .neither hyaml hyml

/-- A directory that has remembered one more theme. -/
def remembering (d : Directory) (id : String) (document : Value) : Directory :=
  { d with cache := (.str id, document) :: d.cache }

theorem cached?_remembering (d : Directory) (name id : String) (document : Value) :
    (d.remembering name document).cached? (.str id) =
      if name = id then some document else d.cached? (.str id) := by
  have halike : (Value.str name).alike (.str id) = (name == id) := by
    simp [Value.alike, Value.alikeLeaf]
  unfold cached? remembering
  rw [List.find?_cons, halike]
  by_cases h : name = id
  · simp [h]
  · simp [h, beq_eq_false_iff_ne.mpr h]

/-- A theme is known, or found and remembered, or it leaves no trace. -/
theorem get_cases (d : Directory) (disk : Disk) (id : String) :
    (∃ document, d.cached? (.str id) = some document ∧
      (d.get disk (.str id)).1 = d ∧ (d.get disk (.str id)).2.result = .ok (some document)) ∨
    (∃ document, d.cached? (.str id) = none ∧ (d.get disk (.str id)).1 = d.remembering id document ∧
      (d.get disk (.str id)).2.result = .ok (some document)) ∨
    (d.cached? (.str id) = none ∧ (d.get disk (.str id)).1 = d ∧
      ∀ document, (d.get disk (.str id)).2.result ≠ .ok (some document)) := by
  cases hcached : d.cached? (.str id) with
  | some document =>
    rw [get_of_cached hcached]
    exact .inl ⟨document, rfl, rfl, rfl⟩
  | none =>
    rw [get_of_not_cached hcached]
    unfold read
    refine .inr ?_
    split
    · exact .inr ⟨rfl, rfl, nofun⟩
    · exact .inr ⟨rfl, rfl, nofun⟩
    · split
      · exact .inr ⟨rfl, rfl, nofun⟩
      · rename_i document _
        exact .inl ⟨document, rfl, rfl, rfl⟩

theorem path_get (d : Directory) (disk : Disk) (id : String) :
    (d.get disk (.str id)).1.path = d.path := by
  rcases d.get_cases disk id with ⟨_, _, h, _⟩ | ⟨_, _, h, _⟩ | ⟨_, h, _⟩ <;> rw [h]
  rfl

/-- What is found is remembered, and nothing else is. -/
theorem cached?_get :
    (d.get disk (.str id)).1.cached? (.str id) = some document ↔
      (d.get disk (.str id)).2.result = .ok (some document) := by
  rcases d.get_cases disk id with
    ⟨found, hcached, h, hresult⟩ | ⟨found, _, h, hresult⟩ | ⟨hcached, h, hresult⟩
  · simp [h, hcached, hresult]
  · simp [h, cached?_remembering, hresult]
  · simp [h, hcached, hresult]

/-- A theme that is asked for changes nothing about another. -/
theorem cached?_get_of_ne {name : String} (hne : name ≠ id) (d : Directory) (disk : Disk) :
    (d.get disk (.str name)).1.cached? (.str id) = d.cached? (.str id) := by
  rcases d.get_cases disk name with ⟨_, _, h, _⟩ | ⟨_, _, h, _⟩ | ⟨_, h, _⟩
  · rw [h]
  · rw [h, cached?_remembering, if_neg hne]
  · rw [h]

end Directory

namespace World

theorem path_after (w : World) (events : List Event) :
    (w.after events).themes.path = w.themes.path := by
  induction events using List.reverseRecOn with
  | nil => rfl
  | append_singleton past e ih =>
    rw [after_concat, ← ih]
    cases e with
    | get id => exact Directory.path_get ..
    | _ => rfl

/-- Only asking for a theme and clearing the directory change what it has read of the theme. -/
theorem cached?_step (hclear : e ≠ .clear) (hget : e ≠ .get id) (w : World) :
    (w.step e).themes.cached? (.str id) = w.themes.cached? (.str id) := by
  cases e with
  | get name => exact Directory.cached?_get_of_ne (fun heq => hget (congrArg Event.get heq)) ..
  | clear => exact absurd rfl hclear
  | _ => rfl

theorem answer_of_cached (h : w.themes.cached? (.str id) = some document) :
    w.answer id = .ok (some document) := by
  rw [answer, Directory.get_of_cached h]
  rfl

theorem onDisk_answer (h : w.themes.cached? (.str id) = none) :
    OnDisk w.themes.path w.disk id (w.answer id) := by
  rw [answer, Directory.get_of_not_cached h]
  exact Directory.onDisk_read ..

/-- Asking for a theme makes it known if it is found. -/
theorem cached?_step_get :
    (w.step (.get id)).themes.cached? (.str id) = some document ↔
      w.answer id = .ok (some document) := Directory.cached?_get

/-- A theme that is not found leaves the world as it is. -/
theorem step_get_of_missed (h : ∀ document, w.answer id ≠ .ok (some document)) :
    w.step (.get id) = w := by
  have hthemes : (w.themes.get w.disk (.str id)).1 = w.themes := by
    rcases w.themes.get_cases w.disk id with ⟨_, _, hself, _⟩ | ⟨_, _, _, hresult⟩ | ⟨_, hself, _⟩
    · exact hself
    · exact absurd hresult (h _)
    · exact hself
  have hfound : w.found? id = none := by
    unfold found?
    cases hanswer : w.answer id with
    | error f => rfl
    | ok found =>
      cases found with
      | none => rfl
      | some document => exact absurd hanswer (h document)
  simp [step, hthemes, hfound]

end World

/-! ### Successes -/

theorem not_success_nil : ¬ Success start [] id before := by
  rintro ⟨since, hpast, _⟩
  simp at hpast

/-- One more event is a success, or leaves those that there were, unless it clears the directory. -/
theorem success_concat :
    Success start (past ++ [e]) id before ↔
      (e ≠ .clear ∧ Success start past id before) ∨
        (e = .get id ∧ before = past ∧
          ∃ document, (start.after past).answer id = .ok (some document)) := by
  constructor
  · rintro ⟨since, hpast, hclear, hfound⟩
    -- The new event is the success itself, or the last of those that came after it.
    induction since using List.reverseRecOn with
    | nil =>
      obtain ⟨rfl, he⟩ := List.append_inj' hpast rfl
      cases he
      exact .inr ⟨rfl, rfl, hfound⟩
    | append_singleton since last _ =>
      rw [← List.cons_append, ← List.append_assoc] at hpast
      obtain ⟨rfl, he⟩ := List.append_inj' hpast rfl
      cases he
      simp only [List.mem_append, List.mem_singleton, not_or] at hclear
      exact .inl ⟨Ne.symm hclear.2, since, rfl, hclear.1, hfound⟩
  · rintro (⟨hne, since, rfl, hclear, hfound⟩ | ⟨rfl, rfl, hfound⟩)
    · refine ⟨since ++ [e], by simp, ?_, hfound⟩
      simpa [hclear] using Ne.symm hne
    · exact ⟨[], rfl, List.not_mem_nil, hfound⟩

theorem Success.length_lt (h : Success start past id before) : before.length < past.length := by
  obtain ⟨since, rfl, _⟩ := h
  simp

theorem FirstSuccess.unique (h : FirstSuccess start past id before)
    (h' : FirstSuccess start past id other) : before = other := by
  have hlength : before.length = other.length := Nat.le_antisymm (h.2 _ h'.1) (h'.2 _ h.1)
  obtain ⟨since, hpast, _⟩ := h.1
  obtain ⟨since', hpast', _⟩ := h'.1
  exact (List.append_inj (hpast.symm.trans hpast') hlength).1

theorem firstSuccess_concat (h : FirstSuccess start past id before) (hclear : e ≠ .clear) :
    FirstSuccess start (past ++ [e]) id before := by
  refine ⟨success_concat.mpr (.inl ⟨hclear, h.1⟩), fun other hother => ?_⟩
  rcases success_concat.mp hother with ⟨_, hother⟩ | ⟨_, rfl, _⟩
  · exact h.2 other hother
  · exact Nat.le_of_lt h.1.length_lt

/-! ### All events -/

/-- What a directory has read of a theme is what its first success has found on the disk. -/
def Remembers (start : World) (past : List Event) (id : String) : Prop :=
  (∃ document before, (start.after past).themes.cached? (.str id) = some document ∧
    FirstSuccess start past id before ∧
    OnDisk start.themes.path (start.after before).disk id (.ok (some document))) ∨
  ((start.after past).themes.cached? (.str id) = none ∧ ∀ before, ¬ Success start past id before)

theorem remembers_clear (start : World) (past : List Event) (id : String) :
    Remembers start (past ++ [.clear]) id := by
  refine .inr ⟨?_, fun before hbefore => ?_⟩
  · rw [World.after_concat]
    rfl
  · rcases success_concat.mp hbefore with ⟨hne, _⟩ | ⟨hget, _⟩
    · exact hne rfl
    · cases hget

theorem Remembers.get (h : Remembers start past id) : Remembers start (past ++ [.get id]) id := by
  rcases h with ⟨document, before, hcached, hfirst, hdisk⟩ | ⟨hcached, hnone⟩
  · refine .inl ⟨document, before, ?_, firstSuccess_concat hfirst nofun, hdisk⟩
    rw [World.after_concat]
    exact World.cached?_step_get.mpr (World.answer_of_cached hcached)
  · by_cases hfound : ∃ document, (start.after past).answer id = .ok (some document)
    · -- Nothing is known of the theme, so it is read, and this is the first success.
      obtain ⟨document, hfound⟩ := hfound
      refine .inl ⟨document, past, ?_, ⟨?_, fun other hother => ?_⟩, ?_⟩
      · rw [World.after_concat]
        exact World.cached?_step_get.mpr hfound
      · exact success_concat.mpr (.inr ⟨rfl, rfl, document, hfound⟩)
      · rcases success_concat.mp hother with ⟨_, hother⟩ | ⟨_, rfl, _⟩
        · exact absurd hother (hnone other)
        · exact Nat.le_refl _
      · rw [← World.path_after start past, ← hfound]
        exact World.onDisk_answer hcached
    · refine .inr ⟨?_, fun before hbefore => ?_⟩
      · rw [World.after_concat, World.step_get_of_missed (not_exists.mp hfound)]
        exact hcached
      · rcases success_concat.mp hbefore with ⟨_, hbefore⟩ | ⟨_, rfl, hbefore⟩
        · exact hnone before hbefore
        · exact hfound hbefore

theorem Remembers.unread (h : Remembers start past id) (hclear : e ≠ .clear) (hget : e ≠ .get id) :
    Remembers start (past ++ [e]) id := by
  unfold Remembers
  rw [World.after_concat, World.cached?_step hclear hget]
  rcases h with ⟨document, before, hcached, hfirst, hdisk⟩ | ⟨hcached, hnone⟩
  · exact .inl ⟨document, before, hcached, firstSuccess_concat hfirst hclear, hdisk⟩
  · refine .inr ⟨hcached, fun before hbefore => ?_⟩
    rcases success_concat.mp hbefore with ⟨_, hbefore⟩ | ⟨he, _⟩
    · exact hnone before hbefore
    · exact hget he

theorem remembers (path : Path) (disk : Disk) (past : List Event) (id : String) :
    Remembers (.fresh path disk) past id := by
  induction past using List.reverseRecOn with
  | nil => exact .inr ⟨rfl, fun _ => not_success_nil⟩
  | append_singleton past e ih =>
    by_cases hclear : e = .clear
    · rw [hclear]
      exact remembers_clear ..
    · by_cases hget : e = .get id
      · rw [hget]
        exact ih.get
      · exact ih.unread hclear hget

/-- **Whatever has happened, a directory of themes recalls what it has read**, and until then it
goes by what the disk holds. -/
theorem recalls (path : Path) (disk : Disk) (past : List Event) (id : String) :
    Recalls (.fresh path disk) past id := by
  rcases remembers path disk past id with
    ⟨document, before, hcached, hfirst, hdisk⟩ | ⟨hcached, hnone⟩
  · exact
      { recalled := fun other hother =>
          ⟨document, hfirst.unique hother ▸ hdisk, World.answer_of_cached hcached⟩
        current := fun hnone => absurd hfirst (hnone before)
        cached := ⟨true, by simp [Directory.isCached, Value.isKey, Value.key?, hcached],
          iff_of_true rfl ⟨before, hfirst.1⟩⟩
        missed := World.step_get_of_missed }
  · exact
      { recalled := fun before hbefore => absurd hbefore.1 (hnone before)
        current := fun _ => by
          rw [← World.path_after (.fresh path disk) past]
          exact World.onDisk_answer hcached
        cached := ⟨false, by simp [Directory.isCached, Value.isKey, Value.key?, hcached],
          iff_of_false nofun (not_exists.mpr hnone)⟩
        missed := World.step_get_of_missed }

end Vitae.Theme
