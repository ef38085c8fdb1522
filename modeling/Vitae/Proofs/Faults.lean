import Vitae.Proofs.Reading

/-! Which faults a reading reports.

A reading collects the faults of its fields in order (`Checked.faults_seq`), each under the name
of its field (`Checked.faults_under`). What is read reports none, so a reading in which one field
alone is at fault reports exactly that (`Checked.eq_bad_of_faults`). -/

namespace Vitae.Checked

variable {α β : Type}

/-- The faults that were found; none in what was read. -/
def faults : Checked α → List PlacedFault
  | .ok _ => []
  | .bad faults => faults

@[simp] theorem faults_ok (x : α) : (ok x).faults = [] := rfl

@[simp] theorem faults_fault (f : Fault) : (fault f : Checked α).faults = [⟨[], f⟩] := rfl

theorem faults_both (f : Checked (α → β)) (x : Checked α) :
    (both f x).faults = f.faults ++ x.faults := by
  cases f <;> cases x <;> simp [both, faults]

@[simp] theorem faults_seq (f : Checked (α → β)) (x : Checked α) :
    (f <*> x).faults = f.faults ++ x.faults :=
  faults_both f x

@[simp] theorem faults_map (f : α → β) (x : Checked α) : (f <$> x).faults = x.faults :=
  (faults_both (.ok f) x).trans (List.nil_append _)

@[simp] theorem faults_under (step : String) (x : Checked α) :
    (x.under step).faults = x.faults.map (PlacedFault.under step) := by
  cases x <;> rfl

theorem eq_bad_of_faults {x : Checked α} {found : List PlacedFault} (h : x.faults = found)
    (hfound : found ≠ []) : x = .bad found := by
  cases x with
  | ok a => exact absurd h.symm hfound
  | bad faults => exact congrArg bad h

end Vitae.Checked
