import Mathlib.Data.List.Nodup
import Vitae.Proofs.Entries
import Vitae.Theme.Store

/-! Themes that are listed, and themes that are found.

A theme is listed by the stem of its file's name and found by names that are made from its
identifier. The two ways are inverse to each other (`Theme.isTheme_iff`), so what is listed is what
has a file (`Theme.Directory.mem_ids_iff`). But each file is listed for itself, and a name that is
tried can be too long for the system. A listing names each theme once, and exactly those that are
found, where neither of the two comes in between (`Theme.Directory.ids_match_iff`). -/

namespace Vitae

namespace Path

/-! ### Names -/

/-- What systems ask of the name of a file. -/
structure IsName (name : String) : Prop where
  whole : '/' ∉ name.toList
  closed : '\x00' ∉ name.toList
  short : name.utf8ByteSize ≤ Disk.longestName

theorem isName_iff {name : String} :
    IsName name ↔ ('/' ∉ name.toList ∧ '\x00' ∉ name.toList) ∧
      name.utf8ByteSize ≤ Disk.longestName :=
  ⟨fun h => ⟨⟨h.whole, h.closed⟩, h.short⟩, fun h => ⟨h.1.1, h.1.2, h.2⟩⟩

instance (name : String) : Decidable (IsName name) := decidable_of_iff _ isName_iff.symm

/-- A point, and then characters that are none. -/
def IsSuffix (s : String) : Prop :=
  ∃ ext : List Char, ext ≠ [] ∧ '.' ∉ ext ∧ s.toList = '.' :: ext

variable {name id s : String}

/-- The point of a suffix is the last one, whatever points there are in front of it. -/
theorem suffixPoint?_append (hid : id ≠ "") (hs : IsSuffix s) :
    suffixPoint? (id ++ s) = some id.toList.length := by
  obtain ⟨ext, hext, hpoint, htext⟩ := hs
  have hstart : 0 < id.toList.length :=
    List.length_pos_iff.mpr fun hnil => hid (String.toList_eq_nil_iff.mp hnil)
  have hend : 0 < ext.length := List.length_pos_iff.mpr hext
  have hlast : (id ++ s).toList.reverse.findIdx? (· == '.') = some ext.length := by
    have hrest : ext.reverse.findIdx? (· == '.') = none := by
      simpa [List.findIdx?_eq_none_iff] using fun c hc => ne_of_mem_of_not_mem hc hpoint
    rw [String.toList_append, htext, List.reverse_append, List.reverse_cons, List.append_assoc,
      List.findIdx?_append, hrest]
    simp [List.findIdx?_cons]
  have hplace : (id ++ s).toList.length - 1 - ext.length = id.toList.length := by
    simp [htext]
  simp only [suffixPoint?, hlast, hplace]
  simp [hstart, hend]

theorem stem_append (hid : id ≠ "") (hs : IsSuffix s) : stem (id ++ s) = id := by
  simp [stem, suffixPoint?_append hid hs]

theorem suffix_append (hid : id ≠ "") (hs : IsSuffix s) : suffix (id ++ s) = s := by
  simp [suffix, suffixPoint?_append hid hs]

theorem pos_of_suffixPoint? {place : Nat} (h : suffixPoint? name = some place) :
    0 < place ∧ place ≤ name.toList.length := by
  unfold suffixPoint? at h
  dsimp only at h
  split at h
  · cases h
  · split at h
    · rename_i hwithin
      cases h
      simp only [Bool.and_eq_true, decide_eq_true_eq] at hwithin
      omega
    · cases h

/-- A name with a suffix is its stem, which is not empty, and the suffix. -/
theorem stem_append_suffix (h : suffix name ≠ "") :
    stem name ≠ "" ∧ stem name ++ suffix name = name := by
  unfold suffix at h
  split at h
  · exact absurd rfl h
  · rename_i place hplace
    obtain ⟨hpos, hle⟩ := pos_of_suffixPoint? hplace
    simp only [stem, suffix, hplace]
    constructor
    · intro hempty
      have hlength : (name.toList.take place).length = 0 := by
        rw [← String.toList_ofList (l := name.toList.take place), hempty]
        rfl
      rw [List.length_take] at hlength
      omega
    · rw [← String.ofList_append, List.take_append_drop, String.ofList_toList]

/-- What ends in a suffix is none of the names that stand for no file of their own. -/
theorem append_ne (hs : IsSuffix s) (id : String) :
    id ++ s ≠ "" ∧ id ++ s ≠ "." ∧ id ++ s ≠ ".." := by
  obtain ⟨ext, hext, hpoint, htext⟩ := hs
  have hlast : (id ++ s).toList.getLast? = some (ext.getLast hext) := by
    rw [String.toList_append, htext]
    simp [List.getLast?_append, List.getLast?_cons, List.getLast?_eq_getLast_of_ne_nil hext]
  have hend : ext.getLast hext ≠ '.' := ne_of_mem_of_not_mem (List.getLast_mem hext) hpoint
  refine ⟨fun h => ?_, fun h => ?_, fun h => ?_⟩
  · rw [h] at hlast
    cases hlast
  · rw [h] at hlast
    exact hend (Option.some.inj hlast).symm
  · rw [h] at hlast
    exact hend (Option.some.inj hlast).symm

/-! ### Names below a path -/

/-- The path that leads on from a directory by one more name. -/
def child (p : Path) (name : String) : Path := { p with names := p.names ++ [name] }

theorem ofText_name (hslash : '/' ∉ name.toList) (hempty : name ≠ "") (hdot : name ≠ ".") :
    ofText name = ⟨.working, [name]⟩ := by
  have hsplit : name.toList.splitOn '/' = [name.toList] := by
    rw [List.splitOn_eq_splitOnP]
    exact List.splitOnP_eq_singleton fun c hc =>
      beq_eq_false_iff_ne.mpr (ne_of_mem_of_not_mem hc hslash)
  have hroot : name.toList.takeWhile (· == '/') = [] := by
    cases hchars : name.toList with
    | nil => rfl
    | cons c rest =>
      rw [hchars] at hslash
      exact List.takeWhile_cons_of_neg fun hc => hslash (beq_iff_eq.mp hc ▸ List.mem_cons_self ..)
  simp [ofText, rootOf, hroot, hsplit, hempty, hdot]

theorem below_name (hslash : '/' ∉ name.toList) (hempty : name ≠ "") (hdot : name ≠ ".")
    (p : Path) : p.below name = p.child name := by
  simp [below, ofText_name hslash hempty hdot, child]

/-- The text of a path in a directory ends in the name. -/
theorem exists_text_child (p : Path) : ∃ start, ∀ name, (p.child name).text = start ++ name := by
  have htail : ∃ start, ∀ name, String.intercalate "/" (p.names ++ [name]) = start ++ name := by
    by_cases hnil : p.names = []
    · exact ⟨"", fun name => by simp [hnil]⟩
    · refine ⟨String.intercalate "/" p.names ++ "/", fun name => ?_⟩
      rw [String.intercalate_append_of_ne_nil hnil (List.cons_ne_nil _ _),
        String.intercalate_singleton]
  obtain ⟨start, hstart⟩ := htail
  cases hroot : p.root with
  | working => exact ⟨start, fun name => by simp [text, child, hroot, hstart]⟩
  | top =>
    exact ⟨"/" ++ start, fun name => by simp [text, child, hroot, hstart, String.append_assoc]⟩
  | doubled =>
    exact ⟨"//" ++ start, fun name => by simp [text, child, hroot, hstart, String.append_assoc]⟩
  | bundled =>
    exact ⟨bundledText ++ "/" ++ start, fun name => by
      simp [text, child, hroot, hstart, String.append_assoc]⟩

end Path

/-! ### Directories -/

namespace Disk

variable {d : Disk} {p : Path} {place : Location} {name : String}

/-- The name that leads from one place to another, if one name does. -/
def nameIn? (place location : Location) : Option String :=
  if location.dropLast == place && !location.isEmpty then location.getLast? else none

theorem nameIn?_eq_some {location : Location} :
    nameIn? place location = some name ↔ location = place ++ [name] := by
  constructor
  · intro h
    unfold nameIn? at h
    split at h
    · rename_i hwithin
      rw [Bool.and_eq_true, beq_iff_eq] at hwithin
      rw [← hwithin.1, List.dropLast_append_getLast? _ h]
    · cases h
  · rintro rfl
    simp [nameIn?]

/-- The names in the directory at a place. -/
def entries (d : Disk) (place : Location) : List String :=
  (Keyed.keys d.nodes).filterMap (nameIn? place)

theorem mem_entries : name ∈ d.entries place ↔ place ++ [name] ∈ Keyed.keys d.nodes := by
  simp [entries, List.mem_filterMap, nameIn?_eq_some]

theorem nodup_entries (h : Keyed.Once d.nodes) : (d.entries place).Nodup := by
  have hkeys : (Keyed.keys d.nodes).Nodup := h.imp fun hne => beq_eq_false_iff_ne.mp hne
  refine hkeys.filterMap fun a b name ha hb => ?_
  rw [nameIn?_eq_some.mp ha, nameIn?_eq_some.mp hb]

theorem isSome_nodeAt? :
    (d.nodeAt? (place ++ [name])).isSome = decide (name ∈ d.entries place) := by
  have hplace : (place ++ [name]).isEmpty = false := by simp
  rw [nodeAt?, hplace, Bool.eq_iff_iff, decide_eq_true_iff, mem_entries]
  exact Keyed.has_iff_mem_keys

/-- A path leads to a directory, in which names are as systems have them: each stands there once. -/
structure Leads (d : Disk) (p : Path) (place : Location) : Prop where
  found : d.find? p = .ok (some place)
  directory : d.isDirectoryAt place = true
  once : Keyed.Once d.nodes
  proper : ∀ name ∈ d.entries place, Path.IsName name

/-- A name cannot be looked for: it is too long, or makes the path too long. -/
def TooLong (p : Path) (name : String) : Prop :=
  longestName < name.utf8ByteSize ∨ longestPath < (p.child name).text.utf8ByteSize

instance (p : Path) (name : String) : Decidable (TooLong p name) :=
  inferInstanceAs (Decidable (_ ∨ _))

theorem TooLong.of_append {id short long : String} (hle : short.utf8ByteSize ≤ long.utf8ByteSize)
    (h : TooLong p (id ++ short)) : TooLong p (id ++ long) := by
  obtain ⟨start, hstart⟩ := p.exists_text_child
  simp only [TooLong, hstart, String.utf8ByteSize_append] at h ⊢
  omega

theorem Leads.namesIn_eq (h : d.Leads p place) : d.namesIn p = .ok (d.entries place) := by
  have hentries : d.entries place = d.nodes.filterMap fun n => nameIn? place n.1 :=
    List.filterMap_map
  rw [namesIn, h.found, hentries]
  show (if (!d.isDirectoryAt place) = true then _ else _) = _
  rw [h.directory]
  rfl

theorem locate_of_find? (h : d.find? p = .ok (some place)) : d.locate p = .ok place := by
  unfold find? at h
  split at h
  · cases h
    assumption
  · cases h
  · cases h

theorem locate_eq_ok (h : d.locate p = .ok place) :
    p.hasZero = false ∧ d.walk (d.rootLocation p.root) p.names = .ok place := by
  unfold locate refusal? at h
  split at h
  · cases h
  · rename_i hnone
    split at hnone
    · cases hnone
    · rename_i hzero
      exact ⟨Bool.not_eq_true _ ▸ hzero, h⟩

theorem step_eq (hplace : d.isDirectoryAt place = true) (hup : name ≠ "..") :
    d.step place name =
      if longestName < name.utf8ByteSize then .error .nameTooLong
      else if name ∈ d.entries place then .ok (place ++ [name]) else .error .missing := by
  simp [step, hplace, hup, isSome_nodeAt?]

/-- A name in a directory is followed from there. -/
theorem Leads.locate_child (h : d.Leads p place) (hzero : '\x00' ∉ name.toList)
    (hup : name ≠ "..") :
    d.locate (p.child name) =
      if TooLong p name then .error .nameTooLong
      else if name ∈ d.entries place then .ok (place ++ [name]) else .error .missing := by
  obtain ⟨hplain, hwalk⟩ := locate_eq_ok (locate_of_find? h.found)
  have hchild : (p.child name).hasZero = false := by
    simpa [Path.hasZero, Path.child, String.contains_char_eq, hzero] using hplain
  have hstep : d.walk (d.rootLocation p.root) (p.child name).names = d.step place name := by
    rw [walk, Path.child, List.foldlM_append]
    show (d.walk (d.rootLocation p.root) p.names >>= fun place =>
      d.step place name >>= Except.ok) = _
    rw [hwalk]
    show (d.step place name >>= Except.ok) = _
    cases d.step place name <;> rfl
  unfold locate refusal?
  rw [hchild]
  by_cases hpath : longestPath < (p.child name).text.utf8ByteSize
  · simp [TooLong, hpath]
  · simp only [TooLong, hpath, or_false, Bool.false_eq_true, if_false]
    show d.walk (d.rootLocation p.root) (p.child name).names = _
    rw [hstep, step_eq h.directory hup]

theorem has_child_of_zero (h : '\x00' ∈ name.toList) : d.has (p.child name) = .ok false := by
  have hzero : (p.child name).hasZero = true := by
    simp [Path.hasZero, Path.child, String.contains_char_eq, h]
  simp [has, find?, locate, refusal?, hzero, Except.map]

theorem Leads.has_child (h : d.Leads p place) (hzero : '\x00' ∉ name.toList) (hup : name ≠ "..") :
    d.has (p.child name) =
      if TooLong p name then .error ⟨.nameTooLong, (p.child name).text⟩
      else .ok (decide (name ∈ d.entries place)) := by
  rw [has, find?, h.locate_child hzero hup]
  by_cases hlong : TooLong p name
  · simp [hlong, Except.map]
  · by_cases hmem : name ∈ d.entries place
    · simp [hlong, hmem, Except.map]
    · simp [hlong, hmem, Except.map]

end Disk

namespace Theme

open Disk (TooLong)

theorem isSuffix_of_mem {s : String} (h : s ∈ suffixes) : Path.IsSuffix s := by
  rcases List.mem_cons.mp h with rfl | h
  · exact ⟨"yaml".toList, by decide, by decide, by decide⟩
  · rw [List.mem_singleton.mp h]
    exact ⟨"yml".toList, by decide, by decide, by decide⟩

/-- By its suffix a name is that of a theme's file, and by its stem of this theme, exactly when it
is made of an identifier and a suffix. -/
theorem isTheme_iff {name id : String} :
    (Path.suffix name ∈ suffixes ∧ Path.stem name = id) ↔
      id ≠ "" ∧ ∃ s ∈ suffixes, name = id ++ s := by
  constructor
  · rintro ⟨hsuffix, rfl⟩
    have hne : Path.suffix name ≠ "" := fun hempty => absurd (hempty ▸ hsuffix) (by decide)
    obtain ⟨hstem, hname⟩ := Path.stem_append_suffix hne
    exact ⟨hstem, _, hsuffix, hname.symm⟩
  · rintro ⟨hid, s, hs, rfl⟩
    have hsuffix := isSuffix_of_mem hs
    rw [Path.suffix_append hid hsuffix, Path.stem_append hid hsuffix]
    exact ⟨hs, rfl⟩

example : Path.suffix ".yaml" = "" ∧ Path.stem "a.b.yml" = "a.b" := by decide

/-- What no name may hold does not come from a suffix. -/
theorem mem_append_iff {c : Char} (hc : c = '/' ∨ c = '\x00') {s : String} (hs : s ∈ suffixes)
    (id : String) : c ∈ (id ++ s).toList ↔ c ∈ id.toList := by
  have hnone : c ∉ s.toList := by
    rcases hc with rfl | rfl
    · exact (by decide : ∀ s ∈ suffixes, '/' ∉ s.toList) s hs
    · exact (by decide : ∀ s ∈ suffixes, '\x00' ∉ s.toList) s hs
  simp [hnone]

/-- Texts in order ascend strictly where none comes twice. -/
theorem pairwise_lt_mergeSort_iff (names : List String) :
    (names.mergeSort fun a b => decide (a ≤ b)).Pairwise (· < ·) ↔ names.Nodup := by
  rw [← (List.mergeSort_perm names fun a b => decide (a ≤ b)).nodup_iff]
  constructor
  · exact fun h => h.imp String.ne_of_lt
  · intro hnodup
    have htrans (a b c : String) (hab : decide (a ≤ b) = true) (hbc : decide (b ≤ c) = true) :
        decide (a ≤ c) = true :=
      decide_eq_true (String.le_trans (of_decide_eq_true hab) (of_decide_eq_true hbc))
    have htotal (a b : String) : (decide (a ≤ b) || decide (b ≤ a)) = true := by
      simpa using String.le_total a b
    refine (List.pairwise_mergeSort htrans htotal names).imp₂ (fun a b hle hne => ?_) hnodup
    exact String.not_le.mp fun hge => hne (String.le_antisymm (of_decide_eq_true hle) hge)

namespace Directory

variable {d : Directory} {disk : Disk} {place : Location} {p : Path} {id : String}
  {listed : List String}

/-! ### What is listed -/

/-- A theme has a file in a directory. -/
def IsThere (disk : Disk) (place : Location) (id : String) : Prop :=
  ∃ s ∈ suffixes, id ++ s ∈ disk.entries place

/-- A theme has two files in a directory. -/
def IsTwofold (disk : Disk) (place : Location) (id : String) : Prop :=
  ∃ s ∈ suffixes, ∃ t ∈ suffixes,
    s ≠ t ∧ id ++ s ∈ disk.entries place ∧ id ++ t ∈ disk.entries place

instance (disk : Disk) (place : Location) (id : String) : Decidable (IsTwofold disk place id) :=
  inferInstanceAs (Decidable (∃ s ∈ suffixes, ∃ t ∈ suffixes,
    s ≠ t ∧ id ++ s ∈ disk.entries place ∧ id ++ t ∈ disk.entries place))

theorem IsTwofold.isThere (h : IsTwofold disk place id) : IsThere disk place id := by
  obtain ⟨s, hs, _, _, _, hmem, _⟩ := h
  exact ⟨s, hs, hmem⟩

/-- The names of the files of themes in a directory. -/
def files (disk : Disk) (place : Location) : List String :=
  (disk.entries place).filter fun name => suffixes.contains (Path.suffix name)

theorem mem_files {name : String} :
    name ∈ files disk place ↔ name ∈ disk.entries place ∧ Path.suffix name ∈ suffixes := by
  simp [files]

theorem ids_eq (h : disk.Leads d.path place) :
    d.ids disk = .ok (((files disk place).map Path.stem).mergeSort fun a b => decide (a ≤ b)) := by
  rw [ids, h.namesIn_eq]
  rfl

/-- The themes that are listed are those that have a file. -/
theorem mem_ids_iff (h : disk.Leads d.path place) (hids : d.ids disk = .ok listed) :
    id ∈ listed ↔ id ≠ "" ∧ IsThere disk place id := by
  cases (ids_eq h).symm.trans hids
  simp only [List.mem_mergeSort, List.mem_map, mem_files]
  constructor
  · rintro ⟨name, ⟨hmem, hsuffix⟩, hstem⟩
    obtain ⟨hid, s, hs, rfl⟩ := isTheme_iff.mp ⟨hsuffix, hstem⟩
    exact ⟨hid, s, hs, hmem⟩
  · rintro ⟨hid, s, hs, hmem⟩
    obtain ⟨hsuffix, hstem⟩ := isTheme_iff.mpr ⟨hid, s, hs, rfl⟩
    exact ⟨id ++ s, ⟨hmem, hsuffix⟩, hstem⟩

theorem nodup_stems_iff (h : Keyed.Once disk.nodes) :
    ((files disk place).map Path.stem).Nodup ↔ ∀ id, id ≠ "" → ¬ IsTwofold disk place id := by
  have hfiles : (files disk place).Nodup := (Disk.nodup_entries h).filter _
  rw [List.nodup_map_iff_inj_on hfiles]
  constructor
  · rintro hinj id hid ⟨s, hs, t, ht, hne, hsThere, htThere⟩
    obtain ⟨hsSuffix, hsStem⟩ := isTheme_iff.mpr ⟨hid, s, hs, rfl⟩
    obtain ⟨htSuffix, htStem⟩ := isTheme_iff.mpr ⟨hid, t, ht, rfl⟩
    have hsame := hinj _ (mem_files.mpr ⟨hsThere, hsSuffix⟩) _ (mem_files.mpr ⟨htThere, htSuffix⟩)
      (hsStem.trans htStem.symm)
    exact hne ((String.append_right_inj id).mp hsame)
  · intro hnone x hx y hy hstem
    obtain ⟨hxThere, hxSuffix⟩ := mem_files.mp hx
    obtain ⟨hyThere, hySuffix⟩ := mem_files.mp hy
    obtain ⟨hid, s, hs, hxs⟩ := isTheme_iff.mp ⟨hxSuffix, rfl⟩
    obtain ⟨-, t, ht, hyt⟩ := isTheme_iff.mp ⟨hySuffix, hstem.symm⟩
    by_contra hne
    -- Two names of one stem differ in their suffixes.
    refine hnone _ hid ⟨s, hs, t, ht, ?_, hxs ▸ hxThere, hyt ▸ hyThere⟩
    rintro rfl
    exact hne (hxs.trans hyt.symm)

theorem ascending_iff (h : disk.Leads d.path place) (hids : d.ids disk = .ok listed) :
    listed.Pairwise (· < ·) ↔ ∀ id, id ≠ "" → ¬ IsTwofold disk place id := by
  cases (ids_eq h).symm.trans hids
  rw [pairwise_lt_mergeSort_iff, nodup_stems_iff h.once]

/-! ### What is found -/

/-- No name that is tried for a theme is too long. -/
def Askable (p : Path) (id : String) : Prop := ∀ s ∈ suffixes, ¬ TooLong p (id ++ s)

instance (p : Path) (id : String) : Decidable (Askable p id) :=
  inferInstanceAs (Decidable (∀ s ∈ suffixes, ¬ TooLong p (id ++ s)))

/-- The first name that is tried is the longest. -/
theorem not_askable_iff : ¬ Askable p id ↔ TooLong p (id ++ ".yaml") := by
  unfold Askable
  constructor
  · intro h
    simp only [not_forall, not_not] at h
    obtain ⟨s, hs, hlong⟩ := h
    have hle := (by decide : ∀ s ∈ suffixes, s.utf8ByteSize ≤ ".yaml".utf8ByteSize) s hs
    exact hlong.of_append hle
  · exact fun hlong h => h ".yaml" (by decide) hlong

theorem file?_child (hslash : '/' ∉ id.toList) (d : Directory) (disk : Disk) :
    d.file? disk (.str id) = firstOf disk ((suffixes.map (id ++ ·)).map d.path.child) := by
  have hbelow : ∀ s ∈ suffixes, d.path.below (id ++ s) = d.path.child (id ++ s) := by
    intro s hs
    obtain ⟨hempty, hdot, -⟩ := Path.append_ne (isSuffix_of_mem hs) id
    exact Path.below_name (mt (mem_append_iff (.inl rfl) hs id).mp hslash) hempty hdot d.path
  rw [file?, List.map_map]
  exact congrArg (firstOf disk) (List.map_congr_left hbelow)

/-- Of names that can be looked for, the first that is there is found. -/
theorem firstOf_children (h : disk.Leads p place) {names : List String}
    (hplain : ∀ name ∈ names, '\x00' ∉ name.toList ∧ name ≠ ".." ∧ ¬ TooLong p name) :
    firstOf disk (names.map p.child) =
      .ok ((names.find? fun name => decide (name ∈ disk.entries place)).map p.child) := by
  induction names with
  | nil => rfl
  | cons name rest ih =>
    obtain ⟨⟨hzero, hup, hshort⟩, hrest⟩ := List.forall_mem_cons.mp hplain
    have hhas := h.has_child hzero hup
    rw [if_neg hshort] at hhas
    rw [List.map_cons, firstOf, hhas, List.find?_cons]
    by_cases hmem : name ∈ disk.entries place
    · rw [decide_eq_true hmem]
      rfl
    · rw [decide_eq_false hmem]
      exact ih hrest

theorem firstOf_eq_none {paths : List Path} (h : ∀ q ∈ paths, disk.has q = .ok false) :
    firstOf disk paths = .ok none := by
  induction paths with
  | nil => rfl
  | cons q rest ih =>
    obtain ⟨hq, hrest⟩ := List.forall_mem_cons.mp h
    rw [firstOf, hq]
    exact ih hrest

theorem file?_of_zero (hslash : '/' ∉ id.toList) (hzero : '\x00' ∈ id.toList) :
    d.file? disk (.str id) = .ok none := by
  rw [file?_child hslash, List.map_map]
  refine firstOf_eq_none fun q hq => ?_
  obtain ⟨s, hs, rfl⟩ := List.mem_map.mp hq
  exact Disk.has_child_of_zero ((mem_append_iff (.inr rfl) hs id).mpr hzero)

theorem file?_of_askable (h : disk.Leads d.path place) (hslash : '/' ∉ id.toList)
    (hzero : '\x00' ∉ id.toList) (hask : Askable d.path id) :
    d.file? disk (.str id) = .ok (((suffixes.map (id ++ ·)).find? fun name =>
      decide (name ∈ disk.entries place)).map d.path.child) := by
  rw [file?_child hslash, firstOf_children h]
  intro name hname
  obtain ⟨s, hs, rfl⟩ := List.mem_map.mp hname
  exact ⟨mt (mem_append_iff (.inr rfl) hs id).mp hzero,
    (Path.append_ne (isSuffix_of_mem hs) id).2.2, hask s hs⟩

theorem file?_of_not_askable (h : disk.Leads d.path place) (hslash : '/' ∉ id.toList)
    (hzero : '\x00' ∉ id.toList) (hask : ¬ Askable d.path id) :
    d.file? disk (.str id) = .error ⟨.nameTooLong, (d.path.child (id ++ ".yaml")).text⟩ := by
  have hyaml : ".yaml" ∈ suffixes := by decide
  have hhas := h.has_child (mt (mem_append_iff (.inr rfl) hyaml id).mp hzero)
    (Path.append_ne (isSuffix_of_mem hyaml) id).2.2
  rw [if_pos (not_askable_iff.mp hask)] at hhas
  rw [file?_child hslash]
  simp only [suffixes, List.map_cons, List.map_nil, firstOf]
  rw [hhas]
  rfl

/-- A theme is found where it has a file and the names that are tried are short enough. -/
theorem found_iff (h : disk.Leads d.path place) (hslash : '/' ∉ id.toList) :
    (∃ file, d.file? disk (.str id) = .ok (some file)) ↔
      IsThere disk place id ∧ Askable d.path id := by
  by_cases hzero : '\x00' ∈ id.toList
  · -- Such a name is looked for in vain, however long it is, and no file has it.
    have hnot : ¬ IsThere disk place id := by
      rintro ⟨s, hs, hmem⟩
      exact (h.proper _ hmem).closed ((mem_append_iff (.inr rfl) hs id).mpr hzero)
    simp [file?_of_zero hslash hzero, hnot]
  · by_cases hask : Askable d.path id
    · have hfind : ((suffixes.map (id ++ ·)).find? fun name =>
          decide (name ∈ disk.entries place)).isSome = true ↔ IsThere disk place id := by
        simp [List.find?_isSome, IsThere]
      rw [file?_of_askable h hslash hzero hask, ← hfind]
      simp [hask, Option.isSome_iff_exists]
    · simp [file?_of_not_askable h hslash hzero hask, hask]

/-! ### Both -/

/-- What a listing is for: it names each theme once, in order, and exactly the themes that are
found. -/
def Matches (d : Directory) (disk : Disk) : Prop :=
  ∃ listed, d.ids disk = .ok listed ∧ listed.Pairwise (· < ·) ∧
    ∀ id, id ≠ "" → '/' ∉ id.toList →
      (id ∈ listed ↔ ∃ file, d.file? disk (.str id) = .ok (some file))

/-- **The listing of a directory matches what is found in it** exactly when no theme has two files,
and none has a name that is too long for the longer of the suffixes. -/
theorem ids_match_iff (h : disk.Leads d.path place) :
    d.Matches disk ↔ ∀ id, id ≠ "" → IsThere disk place id →
      ¬ IsTwofold disk place id ∧ Askable d.path id := by
  have hids := ids_eq h
  constructor
  · rintro ⟨listed, hlisted, hascending, hfound⟩ id hid hthere
    have hslash : '/' ∉ id.toList := by
      obtain ⟨s, hs, hmem⟩ := hthere
      exact mt (mem_append_iff (.inl rfl) hs id).mpr (h.proper _ hmem).whole
    have hmem := (mem_ids_iff h hlisted).mpr ⟨hid, hthere⟩
    exact ⟨(ascending_iff h hlisted).mp hascending id hid,
      ((found_iff h hslash).mp ((hfound id hid hslash).mp hmem)).2⟩
  · intro hall
    refine ⟨_, hids, (ascending_iff h hids).mpr fun id hid htwo => ?_, fun id hid hslash => ?_⟩
    · exact (hall id hid htwo.isThere).1 htwo
    · rw [mem_ids_iff h hids, found_iff h hslash, and_iff_right hid]
      exact (and_iff_left_of_imp fun hthere => (hall id hid hthere).2).symm

/-- A disk with nothing but files of these names, in the working directory. -/
def shelf (names : List String) : Disk where
  nodes := names.map fun name => ([name], .file (.document (.object [])))
  working := []
  workingText := "/"
  bundled := []

/-- The working directory, as one of themes. -/
def here : Directory := .ofPath ⟨.working, []⟩

theorem keys_shelf (names : List String) :
    Keyed.keys (shelf names).nodes = names.map fun name => [name] := by
  simp [Keyed.keys, shelf]

theorem entries_shelf (names : List String) : (shelf names).entries [] = names := by
  rw [Disk.entries, keys_shelf, List.filterMap_map]
  exact List.filterMap_some

theorem leads_shelf {names : List String} (honce : names.Nodup)
    (hproper : ∀ name ∈ names, Path.IsName name) : (shelf names).Leads here.path [] where
  found := by rfl
  directory := by rfl
  once := by
    rw [Keyed.Once, keys_shelf]
    exact List.pairwise_map.mpr (honce.imp fun hne => by simpa using hne)
  proper := by
    rw [entries_shelf]
    exact hproper

/-- Several points in a name, one at its start, and names that are of no theme. -/
def severalPoints : List String := ["a.b.yml", "..yaml", ".yaml", "notes.txt"]

theorem ids_match_iff_severalPoints :
    (shelf severalPoints).Leads here.path [] ∧ here.Matches (shelf severalPoints) := by
  have hleads : (shelf severalPoints).Leads here.path [] := leads_shelf (by decide) (by decide)
  refine ⟨hleads, (ids_match_iff hleads).mpr fun id hid hthere => ?_⟩
  -- A theme that is there is the stem of one of the names.
  have hstem : id ∈ severalPoints.map Path.stem := by
    obtain ⟨s, hs, hmem⟩ := hthere
    rw [entries_shelf] at hmem
    exact List.mem_map.mpr ⟨_, hmem, Path.stem_append hid (isSuffix_of_mem hs)⟩
  have hall : ∀ id ∈ severalPoints.map Path.stem,
      ¬ IsTwofold (shelf severalPoints) [] id ∧ Askable here.path id := by decide
  exact hall id hstem

/-- Two files of one theme are listed as two. -/
theorem twoSuffixes_not_matches : ¬ here.Matches (shelf ["a.yaml", "a.yml"]) := by
  have hleads : (shelf ["a.yaml", "a.yml"]).Leads here.path [] :=
    leads_shelf (by decide) (by decide)
  rintro ⟨listed, hlisted, hascending, -⟩
  refine (ascending_iff hleads hlisted).mp hascending "a" (by decide) ?_
  refine ⟨".yaml", by decide, ".yml", by decide, by decide, ?_⟩
  rw [entries_shelf]
  exact ⟨by decide, by decide⟩

end Directory

end Theme

end Vitae
