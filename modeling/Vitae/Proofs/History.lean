import Mathlib.Data.List.Basic
import Mathlib.Data.List.Induction
import Vitae.Proofs.Likeness
import Vitae.Proofs.Upgrade
import Vitae.Resume.Render

/-! What a provider answers after any history.

A provider is made from resumes, and others are added to it one by one; one without an identifier
to be found by is passed over (`Provider.Reached`). What the provider holds then is told by the
history alone (`Provider.Holds`): under each identifier the resume that was added last with it, in
the order in which the identifiers came first. So every answer is one about the history
(`Provider.Answers`), and a resume that was superseded has no part in any. -/

namespace Vitae.Resume.Provider

/-! ### Histories -/

/-- A provider and the resumes that were offered to it, those it was made from first. -/
inductive Reached : Provider → List Value → Prop
  | made {p : Provider} {initial : List Value} (h : ofList initial = .ok p) : Reached p initial
  | added {p q : Provider} {history : List Value} {resume : Value} (before : Reached p history)
      (h : p.add resume = .ok q) : Reached q (history ++ [resume])
  | passed {p : Provider} {history : List Value} {resume : Value} {m : Misuse}
      (before : Reached p history) (h : p.add resume = .error m) : Reached p (history ++ [resume])

/-- The identifier of a resume, if it has one that can be looked up. -/
def ownId? : Value → Option Value
  | .object fields => (Keyed.get? fields "id").filter Value.isKey
  | _ => none

/-- Whether a resume is added under an identifier. -/
def bears (id resume : Value) : Bool := (ownId? resume).any fun own => own.alike id

/-- The resume that was added last under an identifier. -/
def latest (history : List Value) (id : Value) : Option Value := history.reverse.find? (bears id)

/-- The first of those identifiers that are alike, in order. -/
def firsts : List Value → List Value
  | [] => []
  | id :: later => id :: (firsts later).filter fun other => !id.alike other

/-- The identifiers of a history, in the order in which they came first. -/
def firstIds (history : List Value) : List Value := firsts (history.filterMap ownId?)

/-- The resumes that count after a history, in the order of their identifiers. -/
def current (history : List Value) : List Value := (firstIds history).filterMap (latest history)

/-- No identifier is not-a-number, which is not even alike to itself. -/
def Comparable (history : List Value) : Prop :=
  ∀ resume ∈ history, ∀ id, ownId? resume = some id → id.alike id = true

/-- A resume is public under a slug. -/
def Shown (slug resume : Value) : Prop :=
  (fieldOf resume "slug").alike slug = true ∧ fieldOf resume "isPublic" = .bool true

variable {p q : Provider} {history : List Value} {id other resume : Value}

/-! ### Identifiers in order -/

theorem mem_of_mem_firsts {ids : List Value} (h : id ∈ firsts ids) : id ∈ ids := by
  induction ids with
  | nil => exact h
  | cons first later ih =>
    rcases List.mem_cons.mp h with rfl | h
    · exact List.mem_cons_self
    · exact List.mem_cons_of_mem _ (ih (List.mem_filter.mp h).1)

/-- No two of them are alike. -/
theorem pairwise_firsts (ids : List Value) :
    (firsts ids).Pairwise fun a b => a.alike b = false := by
  induction ids with
  | nil => exact .nil
  | cons first later ih =>
    refine List.pairwise_cons.mpr ⟨fun other hother => ?_, ih.filter _⟩
    simpa using (List.mem_filter.mp hother).2

/-- Whatever has one alike among the identifiers has one among the first ones. -/
theorem any_firsts {ids : List Value} (hids : ∀ id ∈ ids, id.isKey = true) (id : Value) :
    (firsts ids).any (·.alike id) = ids.any (·.alike id) := by
  induction ids with
  | nil => rfl
  | cons first later ih =>
    obtain ⟨hfirst, hlater⟩ := List.forall_mem_cons.mp hids
    rw [firsts, List.any_cons, List.any_cons, ← ih hlater, List.any_filter]
    cases halike : first.alike id with
    | true => rfl
    | false =>
      -- One that is left out is alike to the first one, and so not to the identifier.
      congr 2
      funext other
      cases hother : first.alike other with
      | false => rfl
      | true => rw [← Value.alike_congr hfirst hother id, halike]; rfl

/-- An identifier is a new one only if none before it is alike. -/
theorem firsts_concat {ids : List Value} (hids : ∀ id ∈ ids, id.isKey = true) (id : Value) :
    firsts (ids ++ [id]) = if ids.any (·.alike id) then firsts ids else firsts ids ++ [id] := by
  induction ids with
  | nil => rfl
  | cons first later ih =>
    obtain ⟨_, hlater⟩ := List.forall_mem_cons.mp hids
    rw [List.cons_append, firsts, ih hlater, List.any_cons]
    cases halike : first.alike id <;> cases hany : later.any (·.alike id) <;> simp [firsts, halike]

/-! ### Entries -/

theorem find?_cons (key : Value) (entries : List (Value × Value)) :
    find? ((key, resume) :: entries) id =
      if key.alike id then some resume else find? entries id := by
  rw [find?, List.find?_cons]
  cases key.alike id <;> rfl

theorem find?_put {entries : List (Value × Value)} (hkeys : ∀ e ∈ entries, e.1.isKey = true)
    (hid : id.isKey = true) :
    find? (put entries id resume) other =
      if id.alike other then some resume else find? entries other := by
  induction entries with
  | nil => exact find?_cons id []
  | cons e rest ih =>
    obtain ⟨key, old⟩ := e
    obtain ⟨hkey, hrest⟩ := List.forall_mem_cons.mp hkeys
    rw [put, find?_cons]
    cases halike : key.alike id with
    | true =>
      have hsame : key.alike other = id.alike other := Value.alike_congr hkey halike other
      rw [if_pos rfl, find?_cons, hsame]
      cases id.alike other <;> rfl
    | false =>
      rw [if_neg Bool.false_ne_true, find?_cons, ih hrest]
      cases hother : id.alike other with
      | false => rfl
      | true =>
        -- The entry is alike to nothing that the identifier is alike to.
        have hback : other.alike id = true := Value.alike_symm hid hother
        have hne : key.alike other = false := by
          cases hsame : key.alike other with
          | false => rfl
          | true => rw [Value.alike_congr hkey hsame, hback] at halike; cases halike
        rw [hne]
        rfl

theorem map_fst_put (entries : List (Value × Value)) (id resume : Value) :
    (put entries id resume).map (·.1) =
      if (entries.map (·.1)).any (·.alike id) then entries.map (·.1)
      else entries.map (·.1) ++ [id] := by
  induction entries with
  | nil => rfl
  | cons e rest ih =>
    rw [put, List.map_cons, List.any_cons]
    cases halike : e.1.alike id with
    | true => rfl
    | false =>
      rw [if_neg Bool.false_ne_true, List.map_cons, ih, Bool.false_or]
      split <;> rfl

/-- Entries under different identifiers are all found. -/
theorem find?_of_mem {entries : List (Value × Value)} {e : Value × Value}
    (hne : (entries.map (·.1)).Pairwise fun a b => a.alike b = false) (he : e ∈ entries)
    (hself : e.1.alike e.1 = true) : find? entries e.1 = some e.2 := by
  induction entries with
  | nil => cases he
  | cons first rest ih =>
    obtain ⟨hfirst, hrest⟩ := List.pairwise_cons.mp hne
    rw [find?_cons]
    rcases List.mem_cons.mp he with rfl | he
    · rw [hself]
      rfl
    · rw [hfirst e.1 (List.mem_map_of_mem he)]
      exact ih hrest he

/-! ### What is held -/

theorem isKey_of_ownId? (h : ownId? resume = some id) : id.isKey = true := by
  cases resume with
  | object fields => exact (Option.filter_eq_some_iff.mp h).2
  | _ => cases h

theorem add_of_ownId? (h : ownId? resume = some id) :
    p.add resume = .ok ⟨put p.entries id resume⟩ := by
  cases resume with
  | object fields =>
    obtain ⟨hid, hkey⟩ := Option.filter_eq_some_iff.mp h
    simp only [add, idOf, hid, hkey]
    rfl
  | _ => cases h

theorem add_of_no_ownId? (h : ownId? resume = none) : ∃ m, p.add resume = .error m := by
  cases resume with
  | object fields =>
    cases hid : Keyed.get? fields "id" with
    | none => exact ⟨.missingField, by simp only [add, idOf, hid]; rfl⟩
    | some id =>
      have hkey : id.isKey = false := by simpa [ownId?, hid] using h
      exact ⟨.notAKey, by simp only [add, idOf, hid, hkey]; rfl⟩
  | _ => exact ⟨.notIndexed, rfl⟩

theorem add_eq_ok_iff :
    p.add resume = .ok q ↔ ∃ id, ownId? resume = some id ∧ q = ⟨put p.entries id resume⟩ := by
  cases hown : ownId? resume with
  | none =>
    obtain ⟨m, hm⟩ := add_of_no_ownId? (p := p) hown
    simp [hm]
  | some id => simp [add_of_ownId? hown, eq_comm]

theorem latest_concat (history : List Value) (resume id : Value) :
    latest (history ++ [resume]) id =
      if bears id resume then some resume else latest history id := by
  simp only [latest, List.reverse_append, List.reverse_singleton, List.singleton_append,
    List.find?_cons]
  cases bears id resume <;> rfl

theorem isKey_of_mem_filterMap : ∀ id ∈ history.filterMap ownId?, id.isKey = true := by
  intro id hid
  obtain ⟨_, _, hown⟩ := List.mem_filterMap.mp hid
  exact isKey_of_ownId? hown

theorem alike_self_of_mem_firstIds (hc : Comparable history) (h : id ∈ firstIds history) :
    id.alike id = true := by
  obtain ⟨resume, hmem, hown⟩ := List.mem_filterMap.mp (mem_of_mem_firsts h)
  exact hc resume hmem id hown

/-- A provider holds the resumes that count after a history, in the order of their identifiers. -/
structure Holds (p : Provider) (history : List Value) : Prop where
  ids : p.entries.map (·.1) = firstIds history
  found : ∀ id, find? p.entries id = latest history id

theorem Holds.empty : Holds empty [] := ⟨rfl, fun _ => rfl⟩

theorem Holds.isKey (h : Holds p history) : ∀ e ∈ p.entries, e.1.isKey = true := by
  intro e he
  have hid : e.1 ∈ firstIds history := h.ids ▸ List.mem_map_of_mem he
  exact isKey_of_mem_filterMap _ (mem_of_mem_firsts hid)

theorem Holds.added (h : Holds p history) (hadd : p.add resume = .ok q) :
    Holds q (history ++ [resume]) := by
  obtain ⟨id, hown, rfl⟩ := add_eq_ok_iff.mp hadd
  constructor
  · have hids : (history ++ [resume]).filterMap ownId? = history.filterMap ownId? ++ [id] := by
      simp [hown]
    rw [map_fst_put, h.ids, firstIds, firstIds, hids, firsts_concat isKey_of_mem_filterMap,
      any_firsts isKey_of_mem_filterMap]
  · intro other
    rw [find?_put h.isKey (isKey_of_ownId? hown), h.found, latest_concat, bears, hown]
    rfl

theorem Holds.passed (h : Holds p history) (hown : ownId? resume = none) :
    Holds p (history ++ [resume]) := by
  constructor
  · rw [h.ids]
    simp [firstIds, hown]
  · intro other
    rw [h.found, latest_concat, bears, hown]
    rfl

theorem Holds.made (h : Holds p history) {resumes : List Value}
    (hall : resumes.foldlM add p = .ok q) : Holds q (history ++ resumes) := by
  induction resumes generalizing p history with
  | nil =>
    cases hall
    rwa [List.append_nil]
  | cons resume later ih =>
    obtain ⟨next, hadd, hlater⟩ := Except.bind_eq_ok.mp hall
    rw [← List.singleton_append, ← List.append_assoc]
    exact ih (h.added hadd) hlater

/-- Whatever is offered to a provider, it holds what the history tells. -/
theorem Reached.holds (h : Reached p history) : Holds p history := by
  induction h with
  | made hall => exact Holds.empty.made hall
  | added _ hadd ih => exact ih.added hadd
  | @passed p history resume m _ hadd ih =>
    cases hown : ownId? resume with
    | none => exact ih.passed hown
    | some id =>
      rw [add_of_ownId? hown] at hadd
      cases hadd

theorem exists_reached (history : List Value) : ∃ p, Reached p history := by
  induction history using List.reverseRecOn with
  | nil => exact ⟨_, .made rfl⟩
  | append_singleton history resume ih =>
    obtain ⟨p, hp⟩ := ih
    cases hadd : p.add resume with
    | ok q => exact ⟨q, hp.added hadd⟩
    | error m => exact ⟨p, hp.passed hadd⟩

/-- What a provider holds is what the history tells, and nothing else. -/
theorem Holds.entries_eq (h : Holds p history) (hc : Comparable history) :
    p.entries = (firstIds history).filterMap fun id => (latest history id).map (Prod.mk id) := by
  have hne : (p.entries.map (·.1)).Pairwise fun a b => a.alike b = false :=
    h.ids ▸ pairwise_firsts _
  have hentry : ∀ e ∈ p.entries, (latest history e.1).map (Prod.mk e.1) = some e := by
    intro e he
    have hself : e.1.alike e.1 = true :=
      alike_self_of_mem_firstIds hc (h.ids ▸ List.mem_map_of_mem he)
    rw [← h.found, find?_of_mem hne he hself]
    rfl
  rw [← h.ids, List.filterMap_map]
  exact ((List.filterMap_congr hentry).trans List.filterMap_some).symm

theorem Holds.map_snd (h : Holds p history) (hc : Comparable history) :
    p.entries.map (·.2) = current history := by
  rw [h.entries_eq hc, List.map_filterMap, current]
  congr 1
  funext id
  cases latest history id <;> rfl

/-- A resume that cannot be added might as well not have been offered. -/
theorem Reached.dropped {before after : List Value}
    (h : Reached p (before ++ resume :: after)) (hc : Comparable (before ++ resume :: after))
    (hown : ownId? resume = none) : Reached p (before ++ after) := by
  obtain ⟨q, hq⟩ := exists_reached (before ++ after)
  have hids : firstIds (before ++ after) = firstIds (before ++ resume :: after) := by
    simp [firstIds, hown]
  have hlatest : latest (before ++ after) = latest (before ++ resume :: after) := by
    funext id
    simp [latest, bears, hown]
  have hless : Comparable (before ++ after) := by
    intro other hmem
    refine hc other (List.mem_append.mpr ?_)
    exact (List.mem_append.mp hmem).imp_right (List.mem_cons_of_mem _)
  have hentries : q.entries = p.entries := by
    rw [hq.holds.entries_eq hless, h.holds.entries_eq hc, hids, hlatest]
  have hsame : q = p := congrArg Provider.mk hentries
  exact hsame ▸ hq

theorem bears_iff :
    bears id resume = true ↔ ∃ own, ownId? resume = some own ∧ own.alike id = true := by
  rw [bears]
  cases ownId? resume <;> simp

theorem bears_congr (hid : id.isKey = true) (h : id.alike other = true) :
    bears id = bears other := by
  funext resume
  cases hown : ownId? resume with
  | none => simp only [bears, hown, Option.any_none]
  | some own =>
    have hkey := isKey_of_ownId? hown
    simp only [bears, hown, Option.any_some]
    rw [Value.alike_comm hkey hid, Value.alike_congr hid h,
      Value.alike_comm (Value.isKey_of_alike hid h) hkey]

/-- A resume that counts is the last one under its own identifier. -/
theorem latest_of_mem_current (h : resume ∈ current history) :
    ∃ id, ownId? resume = some id ∧ latest history id = some resume := by
  obtain ⟨first, _, hlatest⟩ := List.mem_filterMap.mp h
  obtain ⟨own, hown, halike⟩ := bears_iff.mp (List.find?_some hlatest)
  refine ⟨own, hown, ?_⟩
  rw [latest, bears_congr (isKey_of_ownId? hown) halike]
  exact hlatest

/-! ### Answers -/

theorem shown_iff {slug : Value} :
    ((fieldOf resume "slug").alike slug && isPublic resume) = true ↔ Shown slug resume := by
  rw [Bool.and_eq_true, Shown, isPublic]
  cases fieldOf resume "isPublic" <;> simp

theorem exists_of_renderFound {stamp : Stamp} {themes : Theme.Source} {disk : Disk}
    {target slug : Value} {found : Except Misuse (Option Value)} {ast : Ast}
    (h : (renderFound stamp themes disk target id slug found).2.result = .ok ast) :
    ∃ resume, found = .ok (some resume) := by
  match found with
  | .error m => cases h
  | .ok none => cases h
  | .ok (some resume) => exact ⟨resume, rfl⟩

/-- The answers that a history calls for. -/
structure Answers (p : Provider) (history : List Value) : Prop where
  /-- A resume is added exactly when it has an identifier that can be looked up. -/
  adds : ∀ resume, (∃ q, p.add resume = .ok q) ↔ ∃ id, ownId? resume = some id
  /-- A resume that could not be added leaves nothing behind. -/
  dropped : ∀ before resume after, history = before ++ resume :: after →
    ownId? resume = none → Reached p (before ++ after)
  /-- An owner gets the last resume under an identifier, if it is the owner's. -/
  get : ∀ id owner, id.isKey = true →
    p.get id owner =
      .ok ((latest history id).filter fun resume => (fieldOf resume "userId").alike owner)
  /-- The public gets the first resume that counts and is public under the slug. -/
  getPublic_some : ∀ slug resume, p.getPublic slug = some resume ↔
    Shown slug resume ∧ ∃ before after, current history = before ++ resume :: after ∧
      ∀ other ∈ before, ¬ Shown slug other
  getPublic_none : ∀ slug, p.getPublic slug = none ↔ ∀ resume ∈ current history, ¬ Shown slug resume
  /-- The public never gets a resume that was superseded. -/
  served : ∀ slug resume, p.getPublic slug = some resume →
    ∃ id, ownId? resume = some id ∧ latest history id = some resume
  /-- Nothing is rendered but the last resume under an identifier, for its owner. -/
  rendered : ∀ stamp themes disk id owner target ast,
    (render stamp p themes disk id owner target).2.result = .ok ast →
    ∃ resume, latest history id = some resume ∧ (fieldOf resume "userId").alike owner = true
  /-- What is rendered has nothing to do with resumes under other identifiers. -/
  alone : ∀ q others id, Reached q others → latest others id = latest history id →
    ∀ stamp themes disk owner target,
      render stamp q themes disk id owner target = render stamp p themes disk id owner target

theorem Holds.get_eq (h : Holds p history) (id owner : Value) :
    p.get id owner =
      if id.isKey then
        .ok ((latest history id).filter fun resume => (fieldOf resume "userId").alike owner)
      else .error .notAKey := by
  rw [get, h.found]

theorem Holds.getPublic_eq (h : Holds p history) (hc : Comparable history) (slug : Value) :
    p.getPublic slug = (current history).find? fun resume =>
      (fieldOf resume "slug").alike slug && isPublic resume := by
  rw [getPublic, h.map_snd hc]

/-- Whatever was offered to a provider, its answers are the ones that the history calls for. -/
theorem answers_of_reached (h : Reached p history) (hc : Comparable history) :
    Answers p history where
  adds resume := by
    simp only [add_eq_ok_iff]
    exact ⟨fun ⟨_, id, hid, _⟩ => ⟨id, hid⟩, fun ⟨id, hid⟩ => ⟨_, id, hid, rfl⟩⟩
  dropped before resume after hhistory hown := by
    subst hhistory
    exact h.dropped hc hown
  get id owner hid := by rw [h.holds.get_eq, if_pos hid]
  getPublic_some slug resume := by
    rw [h.holds.getPublic_eq hc, List.find?_eq_some_iff_append, shown_iff]
    simp only [Bool.not_eq_true', ← Bool.not_eq_true, shown_iff]
  getPublic_none slug := by
    rw [h.holds.getPublic_eq hc, List.find?_eq_none]
    simp only [shown_iff]
  served slug resume hserved := by
    rw [h.holds.getPublic_eq hc] at hserved
    exact latest_of_mem_current (List.mem_of_find?_eq_some hserved)
  rendered stamp themes disk id owner target ast hok := by
    obtain ⟨resume, hfound⟩ := exists_of_renderFound hok
    rw [h.holds.get_eq] at hfound
    split at hfound
    · obtain ⟨hlatest, howner⟩ := Option.filter_eq_some_iff.mp (Except.ok.inj hfound)
      exact ⟨resume, hlatest, howner⟩
    · cases hfound
  alone q others id hq hsame stamp themes disk owner target := by
    rw [render, render, hq.holds.get_eq, h.holds.get_eq, hsame]

/-- A resume is taken over by another owner, who keeps it private; between the two, one without an
identifier is offered under the same slug. A truth value is the same identifier as its number. -/
theorem answers_of_taken_over :
    let first : Value := .object [("id", .int 1), ("userId", .str "ada"), ("slug", .str "me"),
      ("isPublic", .bool true)]
    let nameless : Value := .object [("slug", .str "me"), ("isPublic", .bool true)]
    let second : Value := .object [("id", .bool true), ("userId", .str "bob"), ("slug", .str "me")]
    ∃ p, Reached p ([first] ++ [nameless] ++ [second]) ∧
      p.get (.int 1) (.str "ada") = .ok none ∧
      p.get (.int 1) (.str "bob") = .ok (some second) ∧
      p.getPublic (.str "me") = none := by
  intro first nameless second
  have hcomparable : Comparable ([first] ++ [nameless] ++ [second]) := by
    intro resume hmem id hown
    simp only [List.cons_append, List.nil_append, List.mem_cons, List.not_mem_nil, or_false] at hmem
    rcases hmem with rfl | rfl | rfl <;> cases hown <;> rfl
  have hreached : Reached _ ([first] ++ [nameless] ++ [second]) :=
    ((Reached.made rfl).passed rfl).added rfl
  have answers := answers_of_reached hreached hcomparable
  refine ⟨_, hreached, ?_, ?_, ?_⟩
  · rw [answers.get _ _ rfl]
    rfl
  · rw [answers.get _ _ rfl]
    rfl
  · rw [answers.getPublic_none]
    intro resume hmem hshown
    cases List.mem_singleton.mp hmem
    cases hshown.2

end Vitae.Resume.Provider
