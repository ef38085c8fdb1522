import Vitae.Keyed

/-! What operations do to entries under keys.

More of what `Keyed.get?` finds: behind other entries, among those that a filter keeps, and after
entries were set one by one. The last of these needs that no key is set twice (`Keyed.Once`); then
what is set later wins (`Keyed.get?_setAll`). -/

namespace Vitae.Keyed
variable {κ α : Type} [BEq κ]

theorem get?_append (a b : Keyed κ α) (key : κ) :
    get? (a ++ b) key = (get? a key).or (get? b key) := by
  induction a with
  | nil => rfl
  | cons e rest ih =>
    by_cases h : (e.1 == key) = true
    · simp [get?, h]
    · simp [get?, h, ih]

theorem get?_eq_none {entries : Keyed κ α} {key : κ} (h : ∀ e ∈ entries, (e.1 == key) = false) :
    get? entries key = none := by
  cases hfound : get? entries key with
  | none => rfl
  | some value =>
    obtain ⟨name, hmem, hname⟩ := mem_of_get? hfound
    rw [h _ hmem] at hname
    cases hname

/-- A filter that keeps every entry of a key does not change what the key has. -/
theorem get?_filter {entries : Keyed κ α} {key : κ} {p : κ × α → Bool}
    (h : ∀ e ∈ entries, (e.1 == key) = true → p e = true) :
    get? (entries.filter p) key = get? entries key := by
  induction entries with
  | nil => rfl
  | cons e rest ih =>
    have hrest := ih fun f hf => h f (List.mem_cons_of_mem _ hf)
    by_cases hkey : (e.1 == key) = true
    · simp [h e (List.mem_cons_self ..) hkey, get?, hkey]
    · by_cases hp : p e = true
      · simp [hp, get?, hkey, hrest]
      · simp [hp, get?, hkey, hrest]

theorem has_of_mem {entries : Keyed κ α} {e : κ × α} (h : e ∈ entries) {key : κ}
    (hkey : (e.1 == key) = true) : has entries key = true := by
  induction entries with
  | nil => cases h
  | cons first rest ih =>
    by_cases hfirst : (first.1 == key) = true
    · simp [has, get?, hfirst]
    · rcases List.mem_cons.mp h with rfl | h
      · exact absurd hkey hfirst
      · simpa [has, get?, hfirst] using ih h

theorem has_iff_mem_keys [LawfulBEq κ] {entries : Keyed κ α} {key : κ} :
    has entries key = true ↔ key ∈ keys entries := by
  constructor
  · intro h
    obtain ⟨value, hfound⟩ := Option.isSome_iff_exists.mp h
    obtain ⟨name, hmem, hname⟩ := mem_of_get? hfound
    exact List.mem_map.mpr ⟨_, hmem, beq_iff_eq.mp hname⟩
  · intro h
    obtain ⟨e, hmem, hkey⟩ := List.mem_map.mp h
    exact has_of_mem hmem (beq_iff_eq.mpr hkey)

theorem length_set_le (entries : Keyed κ α) (key : κ) (value : α) :
    (set entries key value).length ≤ entries.length + 1 := by
  induction entries with
  | nil => exact Nat.le_refl 1
  | cons e rest ih =>
    by_cases h : (e.1 == key) = true
    · simp [set, h]
    · simpa [set, h] using ih

theorem mem_set {entries : Keyed κ α} {key : κ} {value : α} {e : κ × α}
    (h : e ∈ set entries key value) : e.2 = value ∨ e ∈ entries := by
  induction entries with
  | nil => exact .inl (congrArg Prod.snd (List.mem_singleton.mp h))
  | cons first rest ih =>
    by_cases hkey : (first.1 == key) = true
    · rw [set, if_pos hkey] at h
      rcases List.mem_cons.mp h with rfl | hmem
      · exact .inl rfl
      · exact .inr (List.mem_cons_of_mem _ hmem)
    · rw [set, if_neg hkey] at h
      rcases List.mem_cons.mp h with rfl | hmem
      · exact .inr List.mem_cons_self
      · exact (ih hmem).imp_right (List.mem_cons_of_mem _)

/-- A key that is absent is set behind all others. -/
theorem set_of_absent {entries : Keyed κ α} {key : κ} {value : α} (h : get? entries key = none) :
    set entries key value = entries ++ [(key, value)] := by
  induction entries with
  | nil => rfl
  | cons e rest ih =>
    by_cases hkey : (e.1 == key) = true
    · simp [get?, hkey] at h
    · simp only [get?, hkey] at h
      simp [set, hkey, ih h]

/-- No key comes twice. -/
def Once (entries : Keyed κ α) : Prop := (keys entries).Pairwise fun a b => (a == b) = false

instance (entries : Keyed κ α) : Decidable (Once entries) :=
  inferInstanceAs (Decidable ((keys entries).Pairwise fun a b => (a == b) = false))

theorem Once.filter {entries : Keyed κ α} (h : Once entries) (p : κ × α → Bool) :
    Once (entries.filter p) :=
  h.sublist (List.filter_sublist.map _)

section Equivalence
variable [EquivBEq κ]

theorem get?_congr (entries : Keyed κ α) {key other : κ} (h : (key == other) = true) :
    get? entries key = get? entries other := by
  induction entries with
  | nil => rfl
  | cons e rest ih => rw [get?, get?, ih, BEq.congr_right h]

theorem get?_of_once_cons {e : κ × α} {rest : Keyed κ α} (h : Once (e :: rest)) :
    get? rest e.1 = none :=
  get?_eq_none fun _ hother =>
    BEq.comm.trans ((List.pairwise_cons.mp h).1 _ (List.mem_map_of_mem hother))

theorem get?_of_mem {entries : Keyed κ α} (h : Once entries) {e : κ × α} (he : e ∈ entries) :
    get? entries e.1 = some e.2 := by
  induction entries with
  | nil => cases he
  | cons first rest ih =>
    rcases List.mem_cons.mp he with rfl | hmem
    · simp [get?]
    · have hne := (List.pairwise_cons.mp h).1 _ (List.mem_map_of_mem hmem)
      rw [get?, if_neg (Bool.eq_false_iff.mp hne)]
      exact ih (List.pairwise_cons.mp h).2 hmem

/-- What a key has is what an entry under it says. -/
theorem get?_eq_some_iff {entries : Keyed κ α} (h : Once entries) {key : κ} {value : α} :
    get? entries key = some value ↔ ∃ e ∈ entries, (e.1 == key) = true ∧ e.2 = value := by
  constructor
  · intro hfound
    obtain ⟨name, hmem, hname⟩ := mem_of_get? hfound
    exact ⟨_, hmem, hname, rfl⟩
  · rintro ⟨e, he, hkey, rfl⟩
    rw [← get?_congr entries hkey]
    exact get?_of_mem h he

theorem get?_set (entries : Keyed κ α) (key other : κ) (value : α) :
    get? (set entries key value) other =
      if key == other then some value else get? entries other := by
  by_cases h : (key == other) = true
  · rw [if_pos h, ← get?_congr _ h, get?_set_self]
  · rw [if_neg h, get?_set_of_ne _ _ (BEq.comm.trans (Bool.not_eq_true _ ▸ h))]

theorem get?_erase (entries : Keyed κ α) (key other : κ) :
    get? (erase entries key) other = if key == other then none else get? entries other := by
  by_cases h : (key == other) = true
  · rw [if_pos h, ← get?_congr _ h, get?_erase_self]
  · rw [if_neg h, get?_erase_of_ne _ (BEq.comm.trans (Bool.not_eq_true _ ▸ h))]

theorem get?_setDefault (entries : Keyed κ α) (key other : κ) (value : α) :
    get? (setDefault entries key value) other =
      if key == other then some ((get? entries key).getD value) else get? entries other := by
  unfold setDefault has
  cases hfound : get? entries key with
  | none => exact get?_set entries key other value
  | some found =>
    by_cases h : (key == other) = true
    · simp [h, ← get?_congr entries h, hfound]
    · simp [h]

/-- Setting a key leaves no key twice. -/
theorem Once.set {entries : Keyed κ α} (h : Once entries) (key : κ) (value : α) :
    Once (Keyed.set entries key value) := by
  induction entries with
  | nil => exact List.pairwise_singleton _ _
  | cons e rest ih =>
    obtain ⟨hfirst, hrest⟩ := List.pairwise_cons.mp h
    by_cases hkey : (e.1 == key) = true
    · rw [Keyed.set, if_pos hkey]
      exact h
    · rw [Keyed.set, if_neg hkey]
      refine List.pairwise_cons.mpr ⟨fun other hother => ?_, ih hrest⟩
      obtain ⟨f, hf, rfl⟩ := List.mem_map.mp hother
      cases hsame : e.1 == f.1 with
      | false => rfl
      | true =>
        -- What is found under the first key behind it can only be what was set.
        have hfound : get? (Keyed.set rest key value) e.1 = get? rest e.1 :=
          get?_set_of_ne rest value (Bool.not_eq_true _ ▸ hkey)
        have hhas := has_of_mem hf (BEq.comm.trans hsame)
        rw [has, hfound, get?_of_once_cons h] at hhas
        cases hhas

/-- Entries that are set later win. -/
theorem get?_setAll {more : Keyed κ α} (h : Once more) (entries : Keyed κ α) (key : κ) :
    get? (setAll entries more) key = (get? more key).or (get? entries key) := by
  induction more generalizing entries with
  | nil => rfl
  | cons e rest ih =>
    show get? (setAll (set entries e.1 e.2) rest) key = _
    rw [ih (List.pairwise_cons.mp h).2, get?]
    by_cases hkey : (e.1 == key) = true
    · rw [if_pos hkey, ← get?_congr rest hkey, get?_of_once_cons h, ← get?_congr _ hkey,
        get?_set_self]
      rfl
    · rw [if_neg hkey, get?_set_of_ne]
      rw [BEq.comm]
      exact Bool.not_eq_true _ ▸ hkey

end Equivalence

end Vitae.Keyed
