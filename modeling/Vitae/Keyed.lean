/-! Entries under keys, in the order in which the keys were first set.

Keys are told apart by their `==`, which may be coarser than equality.
`Keyed.get?` is the view of such a list: the lemmas below say what each
operation does to it. A key that is set again keeps its place and its form. -/

namespace Vitae

abbrev Keyed (κ α : Type) := List (κ × α)

namespace Keyed
variable {κ α : Type} [BEq κ]

def get? : Keyed κ α → κ → Option α
  | [], _ => none
  | (name, value) :: rest, key => if name == key then some value else get? rest key

def has (entries : Keyed κ α) (key : κ) : Bool := (get? entries key).isSome

def keys (entries : Keyed κ α) : List κ := entries.map (·.1)

def set : Keyed κ α → κ → α → Keyed κ α
  | [], key, value => [(key, value)]
  | (name, old) :: rest, key, value =>
    if name == key then (name, value) :: rest else (name, old) :: set rest key value

def erase (entries : Keyed κ α) (key : κ) : Keyed κ α := entries.filter fun e => !(e.1 == key)

/-- Sets a key that is absent. -/
def setDefault (entries : Keyed κ α) (key : κ) (value : α) : Keyed κ α :=
  if has entries key then entries else set entries key value

def setAll (entries : Keyed κ α) (more : Keyed κ α) : Keyed κ α :=
  more.foldl (fun acc e => set acc e.1 e.2) entries

@[simp] theorem get?_nil (key : κ) : get? ([] : Keyed κ α) key = none := rfl

theorem mem_of_get? {entries : Keyed κ α} {key : κ} {value : α}
    (h : get? entries key = some value) : ∃ name, (name, value) ∈ entries ∧ (name == key) = true := by
  induction entries with
  | nil => simp at h
  | cons e rest ih =>
    by_cases hk : (e.1 == key) = true
    · simp only [get?, hk, if_true, Option.some.injEq] at h
      exact ⟨e.1, h ▸ List.mem_cons_self .., hk⟩
    · simp only [get?, hk] at h
      obtain ⟨name, hmem, hname⟩ := ih h
      exact ⟨name, List.mem_cons_of_mem _ hmem, hname⟩

theorem length_erase_lt {entries : Keyed κ α} {key : κ} {value : α}
    (h : get? entries key = some value) : (erase entries key).length < entries.length := by
  induction entries with
  | nil => simp at h
  | cons e rest ih =>
    by_cases hk : (e.1 == key) = true
    · have hle : (erase rest key).length ≤ rest.length := List.length_filter_le _ rest
      have heq : erase (e :: rest) key = erase rest key := by simp [erase, hk]
      rw [heq]
      exact Nat.lt_succ_of_le hle
    · have heq : erase (e :: rest) key = e :: erase rest key := by simp [erase, hk]
      rw [heq]
      simp only [get?, hk] at h
      exact Nat.succ_lt_succ (ih h)

@[simp] theorem get?_erase_self (entries : Keyed κ α) (key : κ) :
    get? (erase entries key) key = none := by
  induction entries with
  | nil => rfl
  | cons e rest ih =>
    by_cases h : (e.1 == key) = true
    · simpa [erase, h] using ih
    · simpa [erase, h, get?] using ih

/-- Setting a key to what it has changes nothing. -/
theorem set_of_get? {entries : Keyed κ α} {key : κ} {value : α}
    (h : get? entries key = some value) : set entries key value = entries := by
  induction entries with
  | nil => simp at h
  | cons e rest ih =>
    by_cases hk : (e.1 == key) = true
    · simp only [get?, hk, if_true, Option.some.injEq] at h
      simp [set, hk, ← h]
    · simp only [get?, hk] at h
      simp [set, hk, ih h]

section Lemmas
variable [EquivBEq κ]

@[simp] theorem get?_set_self (entries : Keyed κ α) (key : κ) (value : α) :
    get? (set entries key value) key = some value := by
  induction entries with
  | nil => simp [set, get?]
  | cons e rest ih => by_cases h : (e.1 == key) = true <;> simp [set, get?, h, ih]

theorem get?_set_of_ne (entries : Keyed κ α) {key other : κ} (value : α)
    (h : (other == key) = false) :
    get? (set entries key value) other = get? entries other := by
  have hne : (key == other) = false := by rw [BEq.comm]; exact h
  induction entries with
  | nil => simp [set, get?, hne]
  | cons e rest ih =>
    by_cases hk : (e.1 == key) = true
    · have ho : (e.1 == other) = false := by rw [BEq.congr_left hk]; exact hne
      simp [set, get?, hk, ho]
    · by_cases ho : (e.1 == other) = true
      · simp [set, get?, hk, ho]
      · simp [set, get?, hk, ho, ih]

theorem get?_erase_of_ne (entries : Keyed κ α) {key other : κ} (h : (other == key) = false) :
    get? (erase entries key) other = get? entries other := by
  have hne : (key == other) = false := by rw [BEq.comm]; exact h
  induction entries with
  | nil => rfl
  | cons e rest ih =>
    by_cases hk : (e.1 == key) = true
    · have ho : (e.1 == other) = false := by rw [BEq.congr_left hk]; exact hne
      simpa [erase, hk, get?, ho] using ih
    · by_cases ho : (e.1 == other) = true
      · simp [erase, get?, hk, ho]
      · simpa [erase, hk, get?, ho] using ih

end Lemmas

end Keyed

end Vitae
