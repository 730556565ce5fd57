import Keysmith.FileSystem.Canonical
import Mathlib.Algebra.GroupWithZero.Nat
import Mathlib.Data.List.Infix

/-!
# Paths as texts

A path is put together as a text and taken apart into steps:

* `ofString_intercalate`  the parts between slashes are the steps
* `ofString_absolutePath`  the absolute path of a place has its names for steps
* `ofString_join_absolutePath`  a relative path behind it has its own steps after those
* `size_absolutePath`  how long the absolute path of a place is
-/

namespace Keysmith

/-! ## Components -/

/-- A component of a path that names an entry: it holds no slash, and it is neither `.` nor
    `..`. -/
structure IsComponent (s : String) : Prop where
  ne_empty : s ≠ ""
  ne_dot : s ≠ "."
  ne_dotdot : s ≠ ".."
  no_slash : '/' ∉ s.toList

/-- A name that an entry can have. -/
structure IsEntryName (s : String) : Prop extends IsComponent s where
  no_nul : '\x00' ∉ s.toList
  size_le : s.utf8ByteSize ≤ Disk.maxName

theorem eq_slash_of_no_slash {s : String} (h : '/' ∉ s.toList) :
    ∀ c ∈ s.toList, (c == '/') = false := by
  intro c hc
  rw [beq_eq_false_iff_ne]
  rintro rfl
  exact h hc

namespace IsComponent

variable {s : String}

theorem toList_ne_nil (h : IsComponent s) : s.toList ≠ [] := by
  simpa using h.ne_empty

theorem head?_ne (h : IsComponent s) : s.toList.head? ≠ some '/' :=
  fun hc => h.no_slash (List.mem_of_head? hc)

theorem getLast?_ne (h : IsComponent s) : s.toList.getLast? ≠ some '/' :=
  fun hc => h.no_slash (List.mem_of_getLast? hc)

end IsComponent

/-! ## Steps of a text -/

/-- The steps of a path hold all characters of its text that are no slashes. -/
theorem mem_steps_of_mem {c : Char} {dir : String} (hc : c ∈ dir.toList) (hne : c ≠ '/') :
    ∃ s ∈ (Path.ofString dir).steps, c ∈ s.toList := by
  obtain ⟨l, hl, hcl⟩ := Text.exists_mem_pieces (p := (· == '/')) hc (by simpa using hne)
  refine ⟨String.ofList l, ?_, by simpa using hcl⟩
  simp only [Path.ofString, List.mem_map, List.mem_filter]
  refine ⟨l, ⟨hl, ?_⟩, rfl⟩
  cases l with
  | nil => cases hcl
  | cons => rfl

/-- The empty text has no steps. -/
theorem steps_empty : (Path.ofString "").steps = [] := by
  have hpieces : Text.pieces (· == '/') [] = [[]] := Text.pieces_of_forall (by simp)
  simp [Path.ofString, hpieces]

/-- A relative path that is not empty has a step. -/
theorem steps_ne_nil_of_relative {dir : String} (hne : dir ≠ "")
    (hrel : dir.toList.head? ≠ some '/') : (Path.ofString dir).steps ≠ [] := by
  have hchars : dir.toList ≠ [] := by simpa using hne
  obtain ⟨c, rest, hcons⟩ := List.exists_cons_of_ne_nil hchars
  have hslash : c ≠ '/' := by
    rintro rfl
    exact hrel (by rw [hcons]; rfl)
  have hmem : c ∈ dir.toList := by
    rw [hcons]
    exact List.mem_cons_self
  obtain ⟨s, hs, -⟩ := mem_steps_of_mem hmem hslash
  exact List.ne_nil_of_mem hs

/-! ## Parts with slashes between them -/

section Parts

variable {parts : List String}

theorem pieces_flatMap (hparts : ∀ s ∈ parts, '/' ∉ s.toList) (r : List Char) :
    Text.pieces (· == '/') ((parts.map String.toList).flatMap (· ++ ['/']) ++ r) =
      parts.map String.toList ++ Text.pieces (· == '/') r := by
  induction parts with
  | nil => rfl
  | cons s parts ih =>
    have hslash : ('/' == '/') = true := rfl
    have hs := eq_slash_of_no_slash (hparts s List.mem_cons_self)
    rw [List.map_cons, List.flatMap_cons, List.append_assoc, List.append_assoc,
      List.singleton_append, Text.pieces_append hs hslash,
      ih fun t ht => hparts t (List.mem_cons_of_mem _ ht), List.cons_append]

/-- Parts that are not empty are kept as steps. -/
theorem steps_of_parts (hparts : ∀ s ∈ parts, s ≠ "") :
    ((parts.map String.toList).filter (!·.isEmpty)).map String.ofList = parts := by
  rw [List.filter_eq_self.mpr, List.map_map]
  · simp
  · simp only [List.mem_map, forall_exists_index, and_imp, forall_apply_eq_imp_iff₂]
    intro s hs
    simpa using hparts s hs

/-- Between the parts there is a slash. -/
theorem toList_intercalate_concat (parts : List String) (s : String) :
    ("/".intercalate (parts ++ [s])).toList =
      (parts.map String.toList).flatMap (· ++ ['/']) ++ s.toList := by
  induction parts with
  | nil => simp
  | cons t parts ih =>
    rw [List.cons_append, String.intercalate_cons_of_ne_nil (by simp), String.toList_append,
      String.toList_append, ih]
    simp

theorem pieces_intercalate_concat {s : String} (hparts : ∀ t ∈ parts ++ [s], '/' ∉ t.toList) :
    Text.pieces (· == '/') ("/".intercalate (parts ++ [s])).toList =
      (parts ++ [s]).map String.toList := by
  have hinit : ∀ t ∈ parts, '/' ∉ t.toList := fun t ht => hparts t (List.mem_append_left _ ht)
  have hlast := eq_slash_of_no_slash (hparts s (by simp))
  rw [toList_intercalate_concat, pieces_flatMap hinit, Text.pieces_of_forall hlast]
  simp

/-- Parts with slashes between them are the steps of a relative path. -/
theorem ofString_intercalate (hne : parts ≠ [])
    (hparts : ∀ s ∈ parts, s ≠ "" ∧ '/' ∉ s.toList) :
    Path.ofString ("/".intercalate parts) = ⟨false, parts, false⟩ := by
  obtain ⟨init, s, rfl⟩ := (List.eq_nil_or_concat' parts).resolve_left hne
  have hpieces := pieces_intercalate_concat fun t ht => (hparts t ht).2
  have hsteps := steps_of_parts fun t ht => (hparts t ht).1
  obtain ⟨hsNe, hsSlash⟩ := hparts s (by simp)
  have hhead : (("/".intercalate (init ++ [s])).toList.head? == some '/') = false := by
    -- The first part is not empty, and begins with no slash
    rw [beq_eq_false_iff_ne]
    cases init with
    | nil =>
      rw [List.nil_append, String.intercalate_singleton]
      exact fun hc => hsSlash (List.mem_of_head? hc)
    | cons t init =>
      obtain ⟨htNe, htSlash⟩ := hparts t (by simp)
      rw [List.cons_append, String.intercalate_cons_of_ne_nil (by simp), String.toList_append,
        String.toList_append, List.append_assoc,
        List.head?_append_of_ne_nil _ (by simpa using htNe)]
      exact fun hc => htSlash (List.mem_of_head? hc)
  have hlast : (("/".intercalate (init ++ [s])).toList.getLast? == some '/') = false := by
    rw [beq_eq_false_iff_ne, toList_intercalate_concat,
      List.getLast?_append_of_ne_nil _ (by simpa using hsNe)]
    exact fun hc => hsSlash (List.mem_of_getLast? hc)
  rw [Path.ofString, hpieces, hsteps, hhead, hlast, Bool.and_false]

end Parts

namespace IsComponent

variable {s : String}

/-- A component is a path of one step. -/
theorem ofString_eq (h : IsComponent s) : Path.ofString s = ⟨false, [s], false⟩ := by
  have hparts : ∀ t ∈ [s], t ≠ "" ∧ '/' ∉ t.toList := by simp [h.ne_empty, h.no_slash]
  have hpath := ofString_intercalate (List.cons_ne_nil s []) hparts
  rwa [String.intercalate_singleton] at hpath

/-- An entry of a directory has the path of two steps. -/
theorem ofString_join {dir : String} (hdir : IsComponent dir) (h : IsComponent s) :
    Path.ofString (Path.join dir s) = ⟨false, [dir, s], false⟩ := by
  have hparts : ∀ t ∈ [dir, s], t ≠ "" ∧ '/' ∉ t.toList := by
    simp [hdir.ne_empty, hdir.no_slash, h.ne_empty, h.no_slash]
  have hjoin : Path.join dir s = "/".intercalate [dir, s] := by
    have hempty : dir.isEmpty = false := by simpa using hdir.ne_empty
    rw [String.intercalate_cons_of_ne_nil (List.cons_ne_nil s []), String.intercalate_singleton]
    simp [Path.join, h.head?_ne, hdir.getLast?_ne, hempty]
  rw [hjoin, ofString_intercalate (List.cons_ne_nil dir [s]) hparts]

end IsComponent

/-! ## The absolute path of a place -/

section Absolute

variable {place : Place} {dir : String}

/-- The absolute path of a place has its names for steps. -/
theorem ofString_absolutePath (hplace : ∀ s ∈ place, IsComponent s) :
    Path.ofString (absolutePath place) = ⟨true, place, false⟩ := by
  rcases List.eq_nil_or_concat' place with rfl | ⟨init, s, rfl⟩
  · decide_cbv
  · have hs := hplace s (by simp)
    have hchars : (absolutePath (init ++ [s])).toList =
        [] ++ '/' :: ("/".intercalate (init ++ [s])).toList := by
      rw [absolutePath, String.toList_append]
      rfl
    have hslash : ('/' == '/') = true := rfl
    have hpieces := Text.pieces_append (p := (· == '/')) (l := []) (by simp) hslash
      ("/".intercalate (init ++ [s])).toList
    rw [pieces_intercalate_concat fun t ht => (hplace t ht).no_slash] at hpieces
    have hsteps := steps_of_parts fun t ht => (hplace t ht).ne_empty
    have hne : ("/".intercalate (init ++ [s])).toList ≠ [] := by
      rw [toList_intercalate_concat]
      exact List.append_ne_nil_of_right_ne_nil _ hs.toList_ne_nil
    have hlast : (([] ++ '/' :: ("/".intercalate (init ++ [s])).toList).getLast? == some '/') =
        false := by
      rw [beq_eq_false_iff_ne, List.nil_append, List.getLast?_cons_of_ne_nil hne,
        toList_intercalate_concat, List.getLast?_append_of_ne_nil _ hs.toList_ne_nil]
      exact hs.getLast?_ne
    rw [Path.ofString, hchars, hpieces, List.filter_cons_of_neg (by simp), hsteps, hlast,
      Bool.and_false]
    rfl

/-- A separator before each of the texts. -/
private theorem cons_intercalate (c : Char) (l : List Char) (ls : List (List Char)) :
    c :: [c].intercalate (l :: ls) = (l :: ls).flatMap (c :: ·) := by
  induction ls generalizing l with
  | nil => simp
  | cons l' ls ih =>
    rw [List.intercalate_cons_cons, List.append_assoc, List.singleton_append, ih]
    rfl

/-- A separator before each of the texts, or after it. -/
private theorem flatMap_cons_sep (c : Char) (ls : List (List Char)) (r : List Char) :
    ls.flatMap (c :: ·) ++ c :: r = c :: (ls.flatMap (· ++ [c]) ++ r) := by
  induction ls with
  | nil => rfl
  | cons l ls ih =>
    rw [List.flatMap_cons, List.flatMap_cons, List.append_assoc, ih]
    simp

/-- A slash comes before each name of a place. -/
theorem toList_absolutePath (hne : place ≠ []) :
    (absolutePath place).toList = (place.map String.toList).flatMap ('/' :: ·) := by
  have hchars : (absolutePath place).toList =
      '/' :: ['/'].intercalate (place.map String.toList) := by simp [absolutePath]
  rw [hchars]
  cases place with
  | nil => exact absurd rfl hne
  | cons s place => exact cons_intercalate '/' s.toList (place.map String.toList)

theorem getLast?_absolutePath (hplace : ∀ s ∈ place, IsComponent s) (hne : place ≠ []) :
    (absolutePath place).toList.getLast? ≠ some '/' := by
  obtain ⟨init, s, rfl⟩ := (List.eq_nil_or_concat' place).resolve_left hne
  have hs := hplace s (by simp)
  rw [toList_absolutePath hne, List.map_append, List.flatMap_append, List.map_singleton,
    List.flatMap_singleton, List.getLast?_append_of_ne_nil _ (List.cons_ne_nil _ _),
    List.getLast?_cons_of_ne_nil hs.toList_ne_nil]
  exact hs.getLast?_ne

theorem join_of_absolute {base : String} (habs : dir.toList.head? = some '/') :
    Path.join base dir = dir := by
  rw [Path.join, if_pos (by simp [habs])]

theorem join_absolutePath (hplace : ∀ s ∈ place, IsComponent s) (hne : place ≠ [])
    (hrel : dir.toList.head? ≠ some '/') :
    Path.join (absolutePath place) dir = absolutePath place ++ "/" ++ dir := by
  have hempty : absolutePath place ≠ "" := by
    rw [Ne, ← String.toList_eq_nil_iff, absolutePath, String.toList_append]
    exact List.cons_ne_nil _ _
  simp [Path.join, hrel, hempty, getLast?_absolutePath hplace hne]

/-- A relative path behind the path of a place: there is a slash after each name. -/
theorem toList_join_absolutePath (hplace : ∀ s ∈ place, IsComponent s)
    (hrel : dir.toList.head? ≠ some '/') : (Path.join (absolutePath place) dir).toList =
      '/' :: ((place.map String.toList).flatMap (· ++ ['/']) ++ dir.toList) := by
  by_cases hne : place = []
  · simp [hne, absolutePath, Path.join, hrel]
  · rw [join_absolutePath hplace hne hrel, String.toList_append, String.toList_append,
      toList_absolutePath hne, ← flatMap_cons_sep]
    simp

/-- The absolute path first goes to the place by its names, and then as the relative one. -/
theorem ofString_join_absolutePath (hplace : ∀ s ∈ place, IsComponent s)
    (hrel : dir.toList.head? ≠ some '/') :
    ∃ slash, (dir ≠ "" → slash = (Path.ofString dir).slash) ∧
      Path.ofString (Path.join (absolutePath place) dir) =
        ⟨true, place ++ (Path.ofString dir).steps, slash⟩ := by
  have hslash : ('/' == '/') = true := rfl
  have hpieces : Text.pieces (· == '/') (Path.join (absolutePath place) dir).toList =
      [] :: (place.map String.toList ++ Text.pieces (· == '/') dir.toList) := by
    have hfirst := Text.pieces_append (p := (· == '/')) (l := []) (by simp) hslash
      ((place.map String.toList).flatMap (· ++ ['/']) ++ dir.toList)
    rw [toList_join_absolutePath hplace hrel,
      ← pieces_flatMap fun s hs => (hplace s hs).no_slash]
    exact hfirst
  -- Only the piece before the first slash is empty and no step
  have hnames := steps_of_parts fun s hs => (hplace s hs).ne_empty
  have hall : ((Text.pieces (· == '/') (Path.join (absolutePath place) dir).toList).filter
      (!·.isEmpty)).map String.ofList = place ++ (Path.ofString dir).steps := by
    rw [hpieces, List.filter_cons_of_neg (by simp), List.filter_append, List.map_append, hnames]
    rfl
  have hhead : (Path.join (absolutePath place) dir).toList.head? = some '/' := by
    rw [toList_join_absolutePath hplace hrel]
    rfl
  have heq : Path.ofString (Path.join (absolutePath place) dir) =
      ⟨true, place ++ (Path.ofString dir).steps, !(place ++ (Path.ofString dir).steps).isEmpty &&
        (Path.join (absolutePath place) dir).toList.getLast? == some '/'⟩ := by
    conv_lhs => rw [Path.ofString, hall, hhead]
    rfl
  refine ⟨_, fun hne => ?_, heq⟩
  -- A relative path has a step, and its last character is the last one of both
  have hsteps := steps_ne_nil_of_relative hne hrel
  have hchars : dir.toList ≠ [] := by simpa using hne
  rw [toList_join_absolutePath hplace hrel, ← List.cons_append,
    List.getLast?_append_of_ne_nil _ hchars]
  have hempty : (Path.ofString dir).steps.isEmpty = false := by simpa using hsteps
  change _ = (!(Path.ofString dir).steps.isEmpty && _)
  simp [hempty, hsteps]

/-- The path of a place with a relative path behind it, as a text. -/
theorem join_absolutePath_text (hnames : ∀ s ∈ place, IsEntryName s)
    (hrel : dir.toList.head? ≠ some '/') :
    Path.join (absolutePath place) dir ≠ "" ∧
      ('\x00' ∈ (Path.join (absolutePath place) dir).toList ↔ '\x00' ∈ dir.toList) := by
  have hchars := toList_join_absolutePath (fun s hs => (hnames s hs).toIsComponent) hrel
  refine ⟨fun hempty => ?_, ?_⟩
  · rw [hempty] at hchars
    cases hchars
  · have hnone : ∀ s ∈ place, '\x00' ∉ s.toList := fun s hs => (hnames s hs).no_nul
    rw [hchars, List.mem_cons, List.mem_append, List.mem_flatMap]
    constructor
    · rintro (h | ⟨l, hl, hmem⟩ | h)
      · exact absurd h (by decide)
      · -- A name holds no such character, and neither does a slash
        obtain ⟨s, hs, rfl⟩ := List.mem_map.mp hl
        rcases List.mem_append.mp hmem with hmem | hmem
        · exact absurd hmem (hnone s hs)
        · exact absurd hmem (by decide)
      · exact h
    · exact fun h => .inr (.inr h)

end Absolute

/-! ## Lengths -/

theorem size_le_join (base name : String) :
    name.utf8ByteSize ≤ (Path.join base name).utf8ByteSize := by
  rw [Path.join]
  split
  · exact Nat.le_refl _
  · split <;> rw [String.utf8ByteSize_append] <;> exact Nat.le_add_left _ _

/-- Each name takes its own length and a slash. -/
theorem size_absolutePath {p : Place} (hne : p ≠ []) :
    (absolutePath p).utf8ByteSize = (p.map (·.utf8ByteSize + 1)).sum := by
  have hslash : "/".utf8ByteSize = 1 := rfl
  induction p with
  | nil => exact absurd rfl hne
  | cons s p ih =>
    by_cases hp : p = []
    · rw [hp, absolutePath, String.intercalate_singleton, String.utf8ByteSize_append, hslash,
        List.map_singleton, List.sum_singleton, Nat.add_comm]
    · have hrest := ih hp
      rw [absolutePath, String.utf8ByteSize_append, hslash] at hrest
      rw [absolutePath, String.intercalate_cons_of_ne_nil hp, List.map_cons, List.sum_cons, ← hrest]
      simp only [String.utf8ByteSize_append, hslash]
      omega

/-- The path of a place is no longer than that of a place below it. -/
theorem size_absolutePath_le {p q : Place} (h : p <+: q) :
    (absolutePath p).utf8ByteSize ≤ (absolutePath q).utf8ByteSize := by
  obtain ⟨r, rfl⟩ := h
  by_cases hp : p = []
  · subst hp
    rw [absolutePath, absolutePath, String.utf8ByteSize_append, String.utf8ByteSize_append,
      String.intercalate_nil]
    exact Nat.add_le_add_left (Nat.zero_le _) _
  · rw [size_absolutePath hp, size_absolutePath (by simp [hp]), List.map_append, List.sum_append]
    exact Nat.le_add_right _ _

/-- With anything behind it, the path of a place is longer by a slash at least. -/
theorem size_absolutePath_of_join {place : Place} {dir : String} {limit : Nat}
    (hplace : ∀ s ∈ place, IsComponent s) (hrel : dir.toList.head? ≠ some '/') (htwo : 2 < limit)
    (hlimit : (Path.join (absolutePath place) dir).utf8ByteSize < limit) :
    (absolutePath place).utf8ByteSize + 1 < limit := by
  by_cases hne : place = []
  · rw [hne]
    exact htwo
  · rw [join_absolutePath hplace hne hrel, String.utf8ByteSize_append,
      String.utf8ByteSize_append] at hlimit
    exact Nat.lt_of_le_of_lt (Nat.le_add_right _ _) hlimit

end Keysmith
