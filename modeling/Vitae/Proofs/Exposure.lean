import Vitae.Proofs.Agreement

/-! What a page tells about a resume.

A compiler looks up one field of a resume, and where it makes items of records its mapper reads
the fields that it names and no others. Resumes that a compiler cannot tell apart
(`SectionCompiler.Indistinct`) give it one payload, whatever the overrides, and resumes that no
compiler of a visible section can tell apart give one page
(`Compile.compileDraft_exposes_visible`). -/

namespace Vitae

/-! ### Records that look the same -/

namespace Item

/-- Records that agree on what a field of an item is made of. -/
def Source.Agrees (a b : Fields) : Source → Prop
  | .field name => Value.field a name = Value.field b name
  | .text name => Keyed.get? a name = Keyed.get? b name
  | .date name => Value.field a name = Value.field b name
  | .each name => Value.field a name = Value.field b name
  | .period =>
    ∀ name ∈ ["startDate", "endDate", "isCurrent"], Value.field a name = Value.field b name

/-- Records that agree on all that an item is made of. -/
def Shape.Agrees (shape : Shape) (a b : Fields) : Prop := ∀ part ∈ shape, part.2.Agrees a b

variable {a b : Fields}

theorem Source.value_congr {source : Source} (h : source.Agrees a b) :
    source.value a = source.value b := by
  cases source with
  | field name => exact congrArg Except.ok h
  | text name => exact congrArg (fun found => Except.ok (found.getD (.str ""))) h
  | date name => exact congrArg (fun found => Except.ok found.isoDate) h
  | each name =>
    have h : Value.field a name = Value.field b name := h
    simp only [value, h]
  | period => simp only [value, periodOf, h "startDate" (by decide), h "endDate" (by decide),
      h "isCurrent" (by decide)]

theorem Shape.item_congr {shape : Shape} (h : shape.Agrees a b) : shape.item a = shape.item b := by
  unfold Shape.item
  induction shape with
  | nil => rfl
  | cons part rest ih =>
    rw [List.mapM_cons, List.mapM_cons, Source.value_congr (h part (List.mem_cons_self ..)),
      ih fun other hother => h other (List.mem_cons_of_mem _ hother)]

/-- A mapper with a shape reads what the shape names. -/
theorem Mapper.apply_object {m : Mapper} {shape : Shape} (h : m.shape? = some shape)
    (record : Fields) : m.apply (.object record) = shape.item record := by
  cases m <;> cases h <;> rfl

end Item

/-! ### Resumes that look the same to a section -/

namespace SectionCompiler

variable {c : SectionCompiler} {u w : Value} {a b : Fields}

/-- Lists of records, of which a compiler makes the same items: equally many objects, that agree
one by one on what its mapper reads. -/
inductive SameRecords (c : SectionCompiler) : Value → Value → Prop
  | intro {m : Item.Mapper} {shape : Item.Shape} {us ws : List Fields} (hitems : c.shape ≠ .content)
      (hmapper : c.mapper = some m) (hshape : m.shape? = some shape)
      (h : List.Forall₂ shape.Agrees us ws) :
      SameRecords c (.list (us.map .object)) (.list (ws.map .object))

/-- Resumes that a compiler cannot tell apart. -/
def Indistinct (c : SectionCompiler) (a b : Fields) : Prop :=
  ∀ source, c.source = some source →
    Value.field a source = Value.field b source ∨
      c.SameRecords (Value.field a source) (Value.field b source)

theorem itemsOf_list (c : SectionCompiler) (records : List Value) :
    c.itemsOf (.list records) = records.mapM c.mapRecord := by
  cases records <;> rfl

theorem itemsOf_congr (h : c.SameRecords u w) : c.itemsOf u = c.itemsOf w := by
  obtain ⟨-, hmapper, hshape, hrecords⟩ := h
  rw [itemsOf_list, itemsOf_list]
  induction hrecords with
  | nil => rfl
  | cons hrecord _ ih =>
    have hmap := Item.Shape.item_congr hrecord
    rw [List.map_cons, List.map_cons, List.mapM_cons, List.mapM_cons, ih]
    simp only [mapRecord, hmapper, Item.Mapper.apply_object hshape, hmap]

theorem payloadOf_congr (h : c.SameRecords u w) (overrides : List Fields) :
    c.payloadOf u overrides = c.payloadOf w overrides := by
  have hitems := itemsOf_congr h
  obtain ⟨hshape, -, -, -⟩ := h
  unfold payloadOf
  rw [if_neg hshape, if_neg hshape, hitems]

theorem compile_congr (h : c.Indistinct a b) (overrides : List Fields) :
    c.compile (.object a) (.ok overrides) = c.compile (.object b) (.ok overrides) := by
  cases hsource : c.source with
  | none => rw [compile_of_no_source hsource, compile_of_no_source hsource]
  | some source =>
    rw [compile_of_source hsource, compile_of_source hsource]
    show c.payloadOf _ overrides = c.payloadOf _ overrides
    rcases h source hsource with hsame | hrecords
    · rw [hsame]
    · exact payloadOf_congr hrecords overrides

end SectionCompiler

namespace SectionRegistry

variable {r : SectionRegistry} {a b : Fields}

theorem result_compile_congr {id : String} (h : (r.get id).Indistinct a b)
    (overrides : List Fields) :
    (r.compile id (.object a) (.ok overrides)).result =
      (r.compile id (.object b) (.ok overrides)).result := by
  rw [result_compile rfl, result_compile rfl, SectionCompiler.compile_congr h]

/-- The fields of a resume that some section shows. -/
def exposed (r : SectionRegistry) : List String :=
  r.compilers.filterMap fun entry => entry.2.source

theorem source_mem_exposed {id source : String} (h : (r.get id).source = some source) :
    source ∈ r.exposed := by
  unfold get at h
  cases hfound : Keyed.get? r.compilers (r.canonical id) with
  | none =>
    rw [hfound] at h
    cases h
  | some c =>
    rw [hfound] at h
    obtain ⟨name, hmem, -⟩ := Keyed.mem_of_get? hfound
    exact List.mem_filterMap.mpr ⟨_, hmem, h⟩

example : builtin.exposed =
    ["experiences", "education", "skills", "languages", "projects", "certifications", "awards",
      "interests", "recommendations", "summary"] := rfl

/-- Fields that no section shows, such as the owner of a resume, tell no compiler anything. -/
theorem indistinct_of_exposed (h : ∀ name ∈ r.exposed, Value.field a name = Value.field b name)
    (id : String) : (r.get id).Indistinct a b :=
  fun source hsource => .inl (h source (source_mem_exposed hsource))

end SectionRegistry

/-! ### Pages -/

theorem Placement.place_exposes_visible {d : Document} {design : DesignStyle}
    {registry : SectionRegistry} {a b : Fields}
    (h : ∀ s ∈ d.sections, s.visible = true → (registry.get s.id).Indistinct a b) :
    (place d design (.object a) registry).result = (place d design (.object b) registry).result := by
  rw [place, place]
  refine placeAll_congr fun s hs => ?_
  obtain ⟨hs, hvisible⟩ := mem_visibleSections.mp hs
  rw [result_placeOne, result_placeOne, SectionRegistry.result_compile_congr (h s hs hvisible)]

namespace Compile

variable {a b : Fields}

/-- What no section shows, such as the owner of a resume, does not count for any document. -/
theorem compileDraft_of_exposed {sections : SectionRegistry}
    (h : ∀ name ∈ sections.exposed, Value.field a name = Value.field b name)
    (stamp stamp' : Stamp) (draft : Draft) (target : Value) (migrations : Migration.Registry) :
    (compileDraft stamp draft target (.object a) migrations sections).result.map Ast.timeless =
      (compileDraft stamp' draft target (.object b) migrations sections).result.map Ast.timeless := by
  refine timeless_compile_congr (fun d _ => ?_) stamp stamp' target
  exact Placement.place_exposes_visible fun s _ _ => SectionRegistry.indistinct_of_exposed h s.id

/-- **A page shows nothing of a resume but what its visible sections read**: resumes that their
compilers cannot tell apart give the same page, or fail alike. -/
theorem compileDraft_exposes_visible (stamp stamp' : Stamp) (draft : Draft) (target : Value)
    (migrations : Migration.Registry) (sections : SectionRegistry)
    (h : ∀ d, Accepts migrations draft.value d → ∀ s ∈ d.sections, s.visible = true →
      (sections.get s.id).Indistinct a b) :
    (compileDraft stamp draft target (.object a) migrations sections).result.map Ast.timeless =
      (compileDraft stamp' draft target (.object b) migrations sections).result.map Ast.timeless :=
  timeless_compile_congr (fun d hd => Placement.place_exposes_visible (h d hd)) stamp stamp' target

/-- A record with something that no mapper reads. -/
def annotated (notes : Value) : Fields :=
  [("id", .str "lean"), ("name", .str "Lean"), ("notes", notes)]

/-- A resume with an owner, and with something that no visible section of `reordered` reads. -/
def ownedBy (owner : Value) : Fields :=
  [("userId", owner), ("slug", owner), ("customTheme", owner), ("awards", .list [owner]),
   ("skills", .list [.object (annotated owner)]), ("summary", .str "Proves things.")]

theorem compileDraft_exposes_visible_ownedBy :
    ∃ ast, (compileDraft ⟨"", ""⟩ (.typed reordered) (.str "pdf") (.object (ownedBy (.str "u1")))
        Migration.builtin .builtin).result = .ok ast ∧
      (∀ d, Accepts Migration.builtin (Draft.typed reordered).value d → ∀ s ∈ d.sections,
        s.visible = true → (SectionRegistry.builtin.get s.id).Indistinct (ownedBy (.str "u1"))
          (ownedBy (.int 7))) ∧
      (compileDraft ⟨"", ""⟩ (.typed reordered) (.str "pdf") (.object (ownedBy (.int 7)))
        Migration.builtin .builtin).result.map Ast.timeless = .ok ast.timeless := by
  have hrecords (shape : Item.Shape) (hshape : Item.Mapper.skill.shape? = some shape) :
      List.Forall₂ shape.Agrees [annotated (.str "u1")] [annotated (.int 7)] := by
    cases hshape
    refine .cons ?_ .nil
    unfold Item.Shape.Agrees
    simp only [List.forall_mem_cons]
    exact ⟨rfl, rfl, rfl, rfl, nofun⟩
  have hskills : (SectionRegistry.builtin.get "skills").Indistinct (ownedBy (.str "u1"))
      (ownedBy (.int 7)) := by
    intro source hsource
    cases hsource
    exact .inr (.intro (by decide) rfl rfl (hrecords _ rfl))
  have hsummary : (SectionRegistry.builtin.get "summary").Indistinct (ownedBy (.str "u1"))
      (ownedBy (.int 7)) := by
    intro source hsource
    cases hsource
    exact .inl rfl
  have hsame : ∀ d, Accepts Migration.builtin (Draft.typed reordered).value d →
      ∀ s ∈ d.sections, s.visible = true → (SectionRegistry.builtin.get s.id).Indistinct
        (ownedBy (.str "u1")) (ownedBy (.int 7)) := by
    intro d hd
    cases hd.unique accepts_reordered
    simp only [reordered, List.forall_mem_cons]
    exact ⟨fun _ => hskills, nofun, fun _ => hsummary, nofun⟩
  have hcompiled : ∀ s ∈ reordered.sections, s.visible = true → ∃ payload,
      (SectionRegistry.builtin.compile s.id (.object (ownedBy (.str "u1"))) (.ok [])).result =
        .ok payload := by
    simp only [reordered, List.forall_mem_cons]
    exact ⟨fun _ => ⟨_, rfl⟩, nofun, fun _ => ⟨_, rfl⟩, nofun⟩
  obtain ⟨placed, hplaced⟩ := Placement.exists_place hcompiled reordered.tokens.resolve
  have hast : (compileDraft ⟨"", ""⟩ (.typed reordered) (.str "pdf")
      (.object (ownedBy (.str "u1"))) Migration.builtin .builtin).result = .ok _ :=
    compile_eq_ok.mpr ⟨.pdf, reordered, placed, rfl, accepts_reordered, hplaced, rfl⟩
  have hpages := compileDraft_exposes_visible ⟨"", ""⟩ ⟨"", ""⟩ (.typed reordered) (.str "pdf")
    Migration.builtin .builtin hsame
  rw [hast] at hpages
  exact ⟨_, hast, hsame, hpages.symm⟩

end Compile

end Vitae
