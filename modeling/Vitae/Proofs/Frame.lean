import Vitae.Proofs.Failing
import Vitae.Proofs.Renewal

/-! What migration leaves alone.

The built-in steps touch a few fields of a document, of its layout, and of the spacing among its
tokens. `Migration.Upgraded` says what becomes of each of them; every other field at these levels
keeps its value, with all that is in it. Nothing is said about order: the fields of an object are
compared key by key (`Fields.AgreeBut`). -/

namespace Vitae

/-! ### Fields that agree but for a few -/

/-- Every field has the same value in both, or none, but for the fields with these names. -/
def Fields.AgreeBut (names : List String) (before after : Fields) : Prop :=
  ∀ key : Key, (∀ name ∈ names, key ≠ .str name) → Keyed.get? after key = Keyed.get? before key

namespace Fields.AgreeBut

variable {names more : List String} {before between after : Fields} {name : String}

theorem refl (names : List String) (fields : Fields) : AgreeBut names fields fields :=
  fun _ _ => rfl

theorem trans (h : AgreeBut names before between) (h' : AgreeBut names between after) :
    AgreeBut names before after := fun key hkey => (h' key hkey).trans (h key hkey)

theorem mono (h : AgreeBut names before after) (hmore : names ⊆ more) :
    AgreeBut more before after := fun key hkey => h key fun name hname => hkey name (hmore hname)

theorem get?_eq (h : AgreeBut names before after) (hname : name ∉ names) :
    Keyed.get? after name = Keyed.get? before name := by
  refine h name fun other hother heq => hname ?_
  cases heq
  exact hother

theorem set (h : AgreeBut names before after) (hname : name ∈ names) (v : Value) :
    AgreeBut names before (Keyed.set after name v) := fun key hkey =>
  (Keyed.get?_set_of_ne after v (Key.beq_str_eq_false (hkey name hname))).trans (h key hkey)

theorem of_set {fields : Fields} {v : Value} :
    AgreeBut [name] fields (Keyed.set fields name v) :=
  (refl [name] fields).set List.mem_cons_self v

theorem erase (h : AgreeBut names before after) (hname : name ∈ names) :
    AgreeBut names before (Keyed.erase after name) := fun key hkey =>
  (Keyed.get?_erase_of_ne after (Key.beq_str_eq_false (hkey name hname))).trans (h key hkey)

theorem setDefault (h : AgreeBut names before after) (hname : name ∈ names) (v : Value) :
    AgreeBut names before (Keyed.setDefault after name v) := by
  unfold Keyed.setDefault
  split
  · exact h
  · exact h.set hname v

end Fields.AgreeBut

/-- An object is changed as a relation between fields allows. What is no object stays as it is. -/
inductive Fields.Reshaped (change : Fields → Fields → Prop) : Option Value → Option Value → Prop
  | object {before after : Fields} (h : change before after) :
      Reshaped change (some (.object before)) (some (.object after))
  | other {found : Option Value} (h : ∀ fields, found ≠ some (.object fields)) :
      Reshaped change found found

theorem Fields.Reshaped.trans {first second both : Fields → Fields → Prop}
    {before between after : Option Value} (h : Reshaped first before between)
    (h' : Reshaped second between after)
    (hboth : ∀ {xs ys zs : Fields}, first xs ys → second ys zs → both xs zs) :
    Reshaped both before after := by
  cases h with
  | object h =>
    cases h' with
    | object h' => exact .object (hboth h h')
    | other hplain => exact absurd rfl (hplain _)
  | other hplain =>
    cases h' with
    | object => exact absurd rfl (hplain _)
    | other => exact .other hplain

namespace Migration

open Fields

/-! ### What becomes of a document -/

/-- The present name of a density. -/
def newDensity : Value → Value
  | .str "normal" => .str "comfortable"
  | v => v

/-- The present name of a layout type. -/
def newType : Value → Value
  | .str "simple" => .str "single-column"
  | .str "sidebar" => .str "sidebar-left"
  | v => v

structure SpacingUpgraded (before after : Fields) : Prop where
  density : Keyed.get? after "density" = (Keyed.get? before "density").map newDensity
  others : AgreeBut ["density"] before after

structure TokensUpgraded (before after : Fields) : Prop where
  spacing : Reshaped SpacingUpgraded (Keyed.get? before "spacing") (Keyed.get? after "spacing")
  others : AgreeBut ["spacing"] before after

/-- What becomes of a layout. Its paper and its type are touched in documents of the oldest version
alone. -/
structure LayoutUpgraded (oldest : Bool) (before after : Fields) : Prop where
  paper : Keyed.get? after "paper" =
    if oldest && !Keyed.has before "paperSize" then none else Keyed.get? before "paper"
  paperSize : Keyed.get? after "paperSize" =
    (Keyed.get? before "paperSize").or (if oldest then Keyed.get? before "paper" else none)
  type : Keyed.get? after "type" =
    (Keyed.get? before "type").map (if oldest then newType else id)
  columnDistribution : Keyed.get? after "columnDistribution" =
    some ((Keyed.get? before "columnDistribution").getD (.str "70-30"))
  showPageNumbers : Keyed.get? after "showPageNumbers" =
    some ((Keyed.get? before "showPageNumbers").getD (.bool false))
  pageNumberPosition : Keyed.get? after "pageNumberPosition" =
    some ((Keyed.get? before "pageNumberPosition").getD (.str "bottom-center"))
  others : AgreeBut ["paper", "paperSize", "type", "columnDistribution", "showPageNumbers",
    "pageNumberPosition"] before after

/-- What becomes of a document when it is brought from the oldest version, or from the first, to
the current one. -/
structure Upgraded (oldest : Bool) (before after : Fields) : Prop where
  version : Keyed.get? after "version" = some (.str "1.1.0")
  layout : Reshaped (LayoutUpgraded oldest) (Keyed.get? before "layout") (Keyed.get? after "layout")
  tokens : Reshaped TokensUpgraded (Keyed.get? before "tokens") (Keyed.get? after "tokens")
  itemOverrides : Keyed.get? after "itemOverrides" =
    some ((Keyed.get? before "itemOverrides").getD (.object []))
  others : AgreeBut ["version", "layout", "tokens", "itemOverrides"] before after

/-! ### The last step -/

variable {document first after layout moved final : Fields}

theorem upgraded_presentDensity (tokens : Fields) :
    TokensUpgraded tokens (presentDensity tokens) := by
  unfold presentDensity
  split
  · rename_i spacing hspacing
    split
    · rename_i hdensity
      refine ⟨?_, .of_set⟩
      rw [hspacing, Keyed.get?_set_self]
      refine .object ⟨?_, .of_set⟩
      rw [Keyed.get?_set_self, hdensity]
      rfl
    · rename_i hdensity
      refine ⟨?_, .refl _ _⟩
      rw [hspacing]
      refine .object ⟨?_, .refl _ _⟩
      cases hfound : Keyed.get? spacing "density" with
      | none => rfl
      | some v =>
        rw [Option.map_some, newDensity]
        rintro rfl
        exact hdensity hfound
  · rename_i hspacing
    exact ⟨.other hspacing, .refl _ _⟩

theorem upgraded_renameDensity (h : renameDensity document = .ok after) :
    Reshaped TokensUpgraded (Keyed.get? document "tokens") (Keyed.get? after "tokens") ∧
      AgreeBut ["tokens"] document after := by
  unfold renameDensity at h
  split at h
  · rename_i tokens htokens
    cases h
    rw [Value.field_eq_object_iff.mp htokens, Keyed.get?_set_self]
    exact ⟨.object (upgraded_presentDensity tokens), .of_set⟩
  · rename_i htokens
    split at h
    · cases h
    · cases h
      refine ⟨.other fun tokens hfound => ?_, .refl _ _⟩
      exact htokens tokens (Value.field_eq_object_iff.mpr hfound)

theorem upgraded_withDefaults (layout : Fields) :
    LayoutUpgraded false layout (withDefaults layout) := by
  rw [withDefaults_eq]
  constructor
  case others =>
    refine AgreeBut.setDefault ?_ (by simp) _
    refine AgreeBut.setDefault ?_ (by simp) _
    exact (AgreeBut.refl _ layout).setDefault (by simp) _
  all_goals simp [get?_setDefault]

theorem upgraded_addLayoutDefaults (document : Fields) :
    Reshaped (LayoutUpgraded false) (Keyed.get? document "layout")
        (Keyed.get? (addLayoutDefaults document) "layout") ∧
      AgreeBut ["layout"] document (addLayoutDefaults document) := by
  unfold addLayoutDefaults
  split
  · rename_i layout hlayout
    rw [hlayout, Keyed.get?_set_self]
    exact ⟨.object (upgraded_withDefaults layout), .of_set⟩
  · rename_i hlayout
    exact ⟨.other hlayout, .refl _ _⟩

theorem upgraded_fromFirst (h : fromFirst document = .ok after) :
    Upgraded false document after := by
  obtain ⟨current, hcurrent, rfl⟩ := Except.map_eq_ok.mp h
  obtain ⟨renamed, hrenamed, hfilled⟩ := Except.bind_eq_ok.mp hcurrent
  cases hfilled
  have hstamped : AgreeBut ["version"] document (stamped "1.0.0" document) := .of_set
  obtain ⟨htokens, hbutTokens⟩ := upgraded_renameDensity hrenamed
  obtain ⟨hlayout, hbutLayout⟩ := upgraded_addLayoutDefaults renamed
  -- Each helper touches one field, so what it finds is what the document had there.
  rw [hstamped.get?_eq (by simp)] at htokens
  rw [hbutTokens.get?_eq (by simp), hstamped.get?_eq (by simp)] at hlayout
  have hkept : AgreeBut ["version", "layout", "tokens", "itemOverrides"] document
      (addLayoutDefaults renamed) :=
    (hstamped.mono (by simp)).trans ((hbutTokens.mono (by simp)).trans (hbutLayout.mono (by simp)))
  refine ⟨Keyed.get?_set_self .., ?_, ?_, ?_, ?_⟩
  · simpa [stamped, get?_set, get?_setDefault] using hlayout
  · simpa [stamped, get?_set, get?_setDefault, hbutLayout.get?_eq] using htokens
  · simp [stamped, get?_set, get?_setDefault, hbutLayout.get?_eq, hbutTokens.get?_eq]
  · exact (hkept.setDefault (by simp) _).set (by simp) _

/-! ### The first step -/

/-- What the first step makes of a layout. -/
structure LayoutMoved (before after : Fields) : Prop where
  paper : Keyed.get? after "paper" =
    if Keyed.has before "paperSize" then Keyed.get? before "paper" else none
  paperSize : Keyed.get? after "paperSize" =
    (Keyed.get? before "paperSize").or (Keyed.get? before "paper")
  type : Keyed.get? after "type" = (Keyed.get? before "type").map newType
  others : AgreeBut ["paper", "paperSize", "type"] before after

theorem newType_str (name : String) :
    newType (.str name) = .str ((Keyed.get? renamedLayouts name).getD name) := by
  unfold newType
  split
  · rename_i h
    cases h
    rfl
  · rename_i h
    cases h
    rfl
  · rename_i hsimple hsidebar
    have hnone : Keyed.get? renamedLayouts name = none := by
      have hsimple : "simple" ≠ name := fun heq => hsimple (congrArg Value.str heq.symm)
      have hsidebar : "sidebar" ≠ name := fun heq => hsidebar (congrArg Value.str heq.symm)
      simp [renamedLayouts, Keyed.get?, hsimple, hsidebar]
    rw [hnone]
    rfl

theorem newType_of_not_str {v : Value} (h : ∀ name, v ≠ .str name) : newType v = v := by
  cases v with
  | str name => exact absurd rfl (h name)
  | _ => rfl

theorem renamed_renameLayout (h : renameLayout layout = .ok moved) :
    Keyed.get? moved "type" = (Keyed.get? layout "type").map newType ∧
      AgreeBut ["type"] layout moved := by
  unfold renameLayout at h
  split at h
  · rename_i name hname
    rw [get?_of_field hname nofun, Option.map_some, newType_str]
    split at h
    · rename_i present hpresent
      cases h
      rw [hpresent, Keyed.get?_set_self]
      exact ⟨rfl, .of_set⟩
    · rename_i hnone
      cases h
      rw [hnone, get?_of_field hname nofun]
      exact ⟨rfl, .refl _ _⟩
  · rename_i hplain
    split at h
    · cases h
      refine ⟨?_, .refl _ _⟩
      cases hfound : Keyed.get? layout "type" with
      | none => rfl
      | some v =>
        have hv : Value.field layout "type" = v := by simp [Value.field, hfound]
        rw [Option.map_some, newType_of_not_str fun name heq => hplain name (hv.trans heq)]
    · cases h

theorem moved_movePaper (layout : Fields) :
    Keyed.get? (movePaper layout) "paper" =
        (if Keyed.has layout "paperSize" then Keyed.get? layout "paper" else none) ∧
      Keyed.get? (movePaper layout) "paperSize" =
        (Keyed.get? layout "paperSize").or (Keyed.get? layout "paper") ∧
      AgreeBut ["paper", "paperSize"] layout (movePaper layout) := by
  unfold movePaper Keyed.has
  cases hpaper : Keyed.get? layout "paper" with
  | none => exact ⟨by simp [hpaper], by simp, .refl _ _⟩
  | some paper =>
    cases hsize : Keyed.get? layout "paperSize" with
    | some size => exact ⟨by simp [hpaper], by simp [hsize], .refl _ _⟩
    | none =>
      exact ⟨by simp [get?_set], by simp,
        ((AgreeBut.refl _ layout).erase (by simp)).set (by simp) _⟩

theorem moved_of_ok (h : renameLayout (movePaper layout) = .ok moved) :
    LayoutMoved layout moved := by
  obtain ⟨hpaper, hsize, hbut⟩ := moved_movePaper layout
  obtain ⟨htype, hbutType⟩ := renamed_renameLayout h
  constructor
  · rw [hbutType.get?_eq (by simp), hpaper]
  · rw [hbutType.get?_eq (by simp), hsize]
  · rw [htype, hbut.get?_eq (by simp)]
  · exact (hbut.mono (by simp)).trans (hbutType.mono (by simp))

theorem LayoutMoved.upgraded (h : LayoutMoved layout moved)
    (hlast : LayoutUpgraded false moved final) : LayoutUpgraded true layout final := by
  constructor
  case others => exact (h.others.mono (by simp)).trans hlast.others
  · rw [hlast.paper, h.paper]
    cases Keyed.has layout "paperSize" <;> rfl
  · simp [hlast.paperSize, h.paperSize]
  · simp [hlast.type, h.type]
  · rw [hlast.columnDistribution, h.others.get?_eq (by simp)]
  · rw [hlast.showPageNumbers, h.others.get?_eq (by simp)]
  · rw [hlast.pageNumberPosition, h.others.get?_eq (by simp)]

theorem moved_toFirst (h : toFirst document = .ok first) :
    Reshaped LayoutMoved (Keyed.get? document "layout") (Keyed.get? first "layout") ∧
      AgreeBut ["layout"] document first := by
  unfold toFirst at h
  split at h
  · rename_i layout hlayout
    obtain ⟨moved, hmoved, hfirst⟩ := Except.bind_eq_ok.mp h
    cases hfirst
    rw [hlayout, Keyed.get?_set_self]
    exact ⟨.object (moved_of_ok hmoved), .of_set⟩
  · rename_i hlayout
    cases h
    exact ⟨.other hlayout, .refl _ _⟩

theorem upgraded_fromOldest (h : fromOldest document = .ok after) :
    Upgraded true document after := by
  obtain ⟨first, hfirst, hlast⟩ := Except.bind_eq_ok.mp h
  have hlast := upgraded_fromFirst hlast
  have hstamped : AgreeBut ["version"] document (stamped "0.9.0" document) := .of_set
  obtain ⟨hlayout, hbutLayout⟩ := moved_toFirst hfirst
  rw [hstamped.get?_eq (by simp)] at hlayout
  have hbut : AgreeBut ["version", "layout"] document first :=
    (hstamped.mono (by simp)).trans (hbutLayout.mono (by simp))
  constructor
  · exact hlast.version
  · exact hlayout.trans hlast.layout LayoutMoved.upgraded
  · rw [← hbut.get?_eq (by simp)]
    exact hlast.tokens
  · rw [hlast.itemOverrides, hbut.get?_eq (by simp)]
  · exact (hbut.mono (by simp)).trans hlast.others

/-! ### Documents of the versions before the current one -/

/-- Steps fail by a misuse, or a document comes out. -/
theorem steps_eq_ok {outcome : Except Misuse Fields} {v : Value} :
    (outcome.mapError Failure.misuse).map Value.object = .ok v ↔
      ∃ fields, outcome = .ok fields ∧ v = .object fields := by
  cases outcome <;> simp [Except.mapError, Except.map, eq_comm]

/-- **Migration to the current version touches nothing else.** It fails where a step stumbles, and
nowhere else, and otherwise changes a document as `Upgraded` says. -/
theorem migrate_upgraded (document : Fields) {version : String}
    (h : Value.field document "version" = .str version)
    (hversion : Version.normal version = "0.9.0" ∨ Version.normal version = "1.0.0") :
    ((∃ after, (builtin.migrate (.object document) (.str Version.current)).result = .ok after) ↔
        ¬ Compile.Stumbles (.object document)) ∧
      ∀ after, (builtin.migrate (.object document) (.str Version.current)).result = .ok after →
        ∃ fields, after = .object fields ∧
          Upgraded (Version.normal version == "0.9.0") document fields := by
  have hknown : Version.normal version ∈ knownOrigins := by
    rcases hversion with hversion | hversion <;> simp [hversion, knownOrigins]
  rw [Compile.stumbles_object_iff h,
    ← Compile.upToDate_of_wellFormed h (Compile.wellFormed_of_known hknown)]
  rcases hversion with hversion | hversion
  · simp only [Compile.upToDate_of_oldest h hversion, steps_eq_ok]
    refine ⟨?_, fun after hafter => ?_⟩
    · rw [exists_comm]
      simp [fromOldest_isOk_iff, hversion]
    · obtain ⟨fields, hfields, rfl⟩ := hafter
      rw [hversion]
      exact ⟨fields, rfl, upgraded_fromOldest hfields⟩
  · simp only [Compile.upToDate_of_first h hversion, steps_eq_ok]
    refine ⟨?_, fun after hafter => ?_⟩
    · rw [exists_comm]
      simp [fromFirst_isOk_iff, hversion]
    · obtain ⟨fields, hfields, rfl⟩ := hafter
      rw [hversion]
      exact ⟨fields, rfl, upgraded_fromFirst hfields⟩

/-- A document of the oldest version, its version written short. Its paper is given as null, one of
the fields that a layout is filled in with is there, and names that are touched in one place come
back in others. -/
def crowdedLegacy : Fields :=
  [("version", .str "0.9"),
   ("layout", .object [("type", .str "simple"), ("paper", .null), ("showPageNumbers", .null),
     ("notes", .object [("type", .str "simple"), ("paper", .str "letter")])]),
   ("tokens", .object [("spacing", .object [("density", .str "normal"), ("gap", .str "normal")]),
     ("density", .str "normal")]),
   ("sections", .list [.object [("id", .str "skills"), ("density", .str "normal")]]),
   ("paper", .str "letter")]

theorem migrate_upgraded_crowded :
    Value.field crowdedLegacy "version" = .str "0.9" ∧ Version.normal "0.9" = "0.9.0" ∧
      ((∃ after, (builtin.migrate (.object crowdedLegacy) (.str Version.current)).result =
          .ok after) ↔ ¬ Compile.Stumbles (.object crowdedLegacy)) ∧
      ∀ after, (builtin.migrate (.object crowdedLegacy) (.str Version.current)).result =
        .ok after → ∃ fields, after = .object fields ∧ Upgraded true crowdedLegacy fields :=
  ⟨rfl, rfl, migrate_upgraded crowdedLegacy rfl (.inl rfl)⟩

end Migration

end Vitae
