import Keysmith.OutputDir
import Keysmith.Proofs.CanonicalPath

/-!
# The output directory is emptied safely

Emptying the output directory judges the path twice, by its spelling and by its canonical form,
and then removes and makes directories by the path itself.  The two agree where the path has a
canonical form:

* `reset_refuses_iff`  which paths are refused, and that a refusal changes nothing
* `reset_of_deep`      a path down to a place that is too deep and up again has no such form, and
  the working directory that it leads to is emptied
* `reset_confined`     what a reset can change, whatever it answers, if that does not happen
-/

namespace Keysmith

namespace OutputDir

open Disk

section Refused

variable {d : Disk} {dir : String}

theorem target?_eq_some_iff (h : d.Standing) (hnames : ∀ s ∈ d.cwd.place, IsEntryName s)
    (hne : dir ≠ "") {q : Place} : target? d d.cwd.place dir = some q ↔ d.Canonical dir q := by
  rw [target?, ← canonicalize_join_eq_ok_iff h hnames hne]
  cases d.canonicalize (Path.join (absolutePath d.cwd.place) dir) <;> simp [Except.toOption]

theorem encloses_iff (h : d.Standing) (hnames : ∀ s ∈ d.cwd.place, IsEntryName s)
    (hne : dir ≠ "") : encloses d d.cwd.place dir = true ↔
      ∃ q, d.Canonical dir q ∧ q <+: d.cwd.place := by
  have hcwd : (d.canonicalize (absolutePath d.cwd.place)).toOption.getD d.cwd.place =
      d.cwd.place := by
    cases hc : d.canonicalize (absolutePath d.cwd.place) with
    | error e => rfl
    | ok q => exact canonicalize_cwd h hnames hc
  unfold encloses
  rw [hcwd]
  cases ht : target? d d.cwd.place dir with
  | none =>
    refine iff_of_false (by simp) ?_
    rintro ⟨q, hq, -⟩
    cases ht.symm.trans ((target?_eq_some_iff h hnames hne).mpr hq)
  | some q =>
    have hq := (target?_eq_some_iff h hnames hne).mp ht
    rw [List.isPrefixOf_iff_prefix]
    constructor
    · exact fun hle => ⟨q, hq, hle⟩
    · rintro ⟨r, hr, hle⟩
      rwa [hq.names.2.2.unique hr.names.2.2]

/-- A path that leads elsewhere is not taken to enclose the working directory. -/
theorem encloses_eq_false (h : d.Standing) (hnames : ∀ s ∈ d.cwd.place, IsEntryName s)
    (hne : dir ≠ "") (hnot : ¬ ∃ q, d.Names .follow dir q ∧ q <+: d.cwd.place) :
    encloses d d.cwd.place dir = false := by
  rw [Bool.eq_false_iff, Ne, encloses_iff h hnames hne]
  rintro ⟨q, hq, hle⟩
  exact hnot ⟨q, hq.names, hle⟩

theorem isNavigation_iff :
    isNavigation dir = true ↔ ∀ s ∈ (Path.ofString dir).steps, s = "." ∨ s = ".." := by
  simp [isNavigation, Path.isNavigation]

/-- A path that only moves between directories holds no NUL character, and the steps to go are
    of that kind. -/
theorem walk_of_navigation (hnav : ∀ s ∈ (Path.ofString dir).steps, s = "." ∨ s = "..") :
    '\x00' ∉ dir.toList ∧ ∀ s ∈ (Path.ofString dir).walk, s = "." ∨ s = ".." := by
  refine ⟨fun hnul => ?_, fun s hs => ?_⟩
  · obtain ⟨s, hs, hmem⟩ := mem_steps_of_mem hnul (by decide)
    rcases hnav s hs with rfl | rfl <;> simp at hmem
  · rw [walk_eq, List.mem_append] at hs
    rcases hs with hs | hs
    · exact hnav s hs
    · split at hs
      · exact .inl (List.mem_singleton.mp hs)
      · cases hs

/-- A path that only moves between directories leads to one that encloses the working
    directory. -/
theorem names_of_navigation (h : d.Standing) (hne : dir ≠ "")
    (hnav : ∀ s ∈ (Path.ofString dir).steps, s = "." ∨ s = "..") :
    ∃ q, d.Names .follow dir q ∧ q <+: d.cwd.place := by
  obtain ⟨hnul, hwalk⟩ := walk_of_navigation hnav
  have hstart := startPlace_le (Path.ofString dir) d.cwd.place
  obtain ⟨q, hq, hle, _⟩ :=
    Leads.of_navigation .follow (Node.kindAt_dir_above hstart h.isDir) hwalk
  exact ⟨q, ⟨hne, hnul, 0, Nat.zero_le _, hq⟩, hle.trans hstart⟩

/-- The empty path has no steps. -/
theorem refused_of_empty (hempty : dir = "") :
    (isNavigation dir || encloses d d.cwd.place dir) = true := by
  rw [Bool.or_eq_true, isNavigation_iff, hempty, steps_empty]
  exact .inl fun s hs => absurd hs List.not_mem_nil

/-- What the two tests of a path come to. -/
theorem refused_iff (h : d.Standing) (hnames : ∀ s ∈ d.cwd.place, IsEntryName s) :
    (isNavigation dir || encloses d d.cwd.place dir) = true ↔
      (∀ s ∈ (Path.ofString dir).steps, s = "." ∨ s = "..") ∨
        ∃ q, d.Canonical dir q ∧ q <+: d.cwd.place := by
  by_cases hne : dir = ""
  · refine iff_of_true (refused_of_empty hne) (.inl ?_)
    rw [hne, steps_empty]
    exact fun s hs => absurd hs List.not_mem_nil
  · rw [Bool.or_eq_true, isNavigation_iff, encloses_iff h hnames hne]

/-- A path that is refused is empty, or leads to the working directory or above it. -/
theorem names_of_refused (h : d.Standing) (hnames : ∀ s ∈ d.cwd.place, IsEntryName s)
    (href : (isNavigation dir || encloses d d.cwd.place dir) = true) :
    dir = "" ∨ ∃ q, d.Names .follow dir q ∧ q <+: d.cwd.place := by
  rcases (refused_iff h hnames).mp href with hnav | ⟨q, hq, hle⟩
  · exact or_iff_not_imp_left.mpr fun hne => names_of_navigation h hne hnav
  · exact .inr ⟨q, hq.names, hle⟩

/-- All these paths are refused, but for those that have no canonical form. -/
theorem refused_iff_names_iff (h : d.Standing) (hnames : ∀ s ∈ d.cwd.place, IsEntryName s) :
    ((isNavigation dir || encloses d d.cwd.place dir) = true ↔
      dir = "" ∨ ∃ q, d.Names .follow dir q ∧ q <+: d.cwd.place) ↔ d.InLimit dir := by
  constructor
  · intro hiff q hq hle
    rcases (refused_iff h hnames).mp (hiff.mpr (.inr ⟨q, hq, hle⟩)) with hnav | ⟨r, hr, -⟩
    · exact .inl hnav
    · rw [hq.2.2.unique hr.names.2.2]
      exact .inr hr
  · intro hlimit
    refine ⟨names_of_refused h hnames, ?_⟩
    rintro (hempty | ⟨q, hq, hle⟩)
    · exact refused_of_empty hempty
    · exact (refused_iff h hnames).mpr ((hlimit q hq hle).imp_right fun hc => ⟨q, hc, hle⟩)

end Refused

theorem reset_of_standing {d : Disk} (h : d.Standing) (dir : String) :
    reset dir d =
      if isNavigation dir || encloses d d.cwd.place dir then (.error (.unsafeOutputDir dir), d)
      else recreate dir d := by
  rw [reset, workingPlace?, h.present]

/-- What removing a directory and making it again can come to.  The second operation
    works on the disk that the first one left. -/
inductive Recreation (dir : String) (d : Disk) : Except Failure Unit × Disk → Prop
  /-- What is there cannot be removed. -/
  | stuck (e : IoError) : (removeAll dir d).1 = .error e → e ≠ .os .noEntry →
      Recreation dir d (.error (.outputDir dir e), (removeAll dir d).2)
  /-- The directory cannot be made. -/
  | failed (e : IoError) :
      (removeAll dir d).1 = .ok () ∨ (removeAll dir d).1 = .error (.os .noEntry) →
      (createAll dir (removeAll dir d).2).1 = .error e → e ≠ .os .alreadyExists →
      Recreation dir d (.error (.outputDir dir e), (createAll dir (removeAll dir d).2).2)
  /-- The directory is made, or its name is taken. -/
  | done :
      (removeAll dir d).1 = .ok () ∨ (removeAll dir d).1 = .error (.os .noEntry) →
      (createAll dir (removeAll dir d).2).1 = .ok () ∨
        (createAll dir (removeAll dir d).2).1 = .error (.os .alreadyExists) →
      Recreation dir d (.ok (), (createAll dir (removeAll dir d).2).2)

theorem recreate_cases (dir : String) (d : Disk) : Recreation dir d (recreate dir d) := by
  unfold recreate
  extract_lets create
  -- The second half of the work, on the disk that the removal left
  have hcreate : ∀ d₁ : Disk, (removeAll dir d).2 = d₁ →
      ((removeAll dir d).1 = .ok () ∨ (removeAll dir d).1 = .error (.os .noEntry)) →
      Recreation dir d (create d₁) := by
    rintro d₁ rfl hgone
    have hdone := Recreation.done hgone
    have hfailed := @Recreation.failed dir d
    dsimp only [create]
    split
    · rename_i hmk
      rw [hmk] at hdone
      exact hdone (.inr rfl)
    · rename_i e _ hne hmk
      rw [hmk] at hfailed
      exact hfailed e hgone rfl hne
    · rename_i hmk
      rw [hmk] at hdone
      exact hdone (.inl rfl)
  split
  · rename_i hrm
    exact hcreate _ (by rw [hrm]) (.inr (by rw [hrm]))
  · rename_i e _ hne hrm
    have hstuck := @Recreation.stuck dir d e
    rw [hrm] at hstuck
    exact hstuck rfl hne
  · rename_i hrm
    exact hcreate _ (by rw [hrm]) (.inl (by rw [hrm]))

theorem recreate_cwd (dir : String) (d : Disk) :
    (recreate dir d).2.cwd = (removeAll dir d).2.cwd := by
  have hr := recreate_cases dir d
  generalize recreate dir d = r at hr
  cases hr with
  | stuck => rfl
  | failed => exact createAll_cwd dir _
  | done => exact createAll_cwd dir _

/-- Emptying fails for no other cause than the operations on the disk. -/
theorem recreate_not_refused (dir path : String) (d : Disk) :
    (recreate dir d).1 ≠ .error (.unsafeOutputDir path) := by
  have h := recreate_cases dir d
  generalize recreate dir d = r at h
  cases h <;> simp

theorem recreate_grows (dir : String) {d : Disk} (h : (removeAll dir d).2.Standing) :
    Grows (removeAll dir d).2 (recreate dir d).2 := by
  have hr := recreate_cases dir d
  generalize recreate dir d = r at hr
  cases hr with
  | stuck => exact .refl _
  | failed => exact createAll_grows dir h
  | done => exact createAll_grows dir h

/-- A path is refused exactly if it only moves between directories, as the empty one does, or
    has the canonical form of the working directory or of a directory that encloses it.  So of
    the paths that are empty or lead to such a directory only those are let through that have no
    canonical form.  A refusal changes nothing. -/
theorem reset_refuses_iff (d : Disk) (dir : String) (h : d.Standing)
    (hnames : ∀ s ∈ d.cwd.place, IsEntryName s) :
    ((reset dir d).1 = .error (.unsafeOutputDir dir) ↔
      (∀ s ∈ (Path.ofString dir).steps, s = "." ∨ s = "..") ∨
        ∃ q, d.Canonical dir q ∧ q <+: d.cwd.place) ∧
    (((reset dir d).1 = .error (.unsafeOutputDir dir) ↔
      dir = "" ∨ ∃ q, d.Names .follow dir q ∧ q <+: d.cwd.place) ↔ d.InLimit dir) ∧
    ((∀ s ∈ (Path.ofString dir).steps, s = "." ∨ s = "..") →
      dir = "" ∨ ∃ q, d.Names .follow dir q ∧ q <+: d.cwd.place) ∧
    (∀ path, (reset dir d).1 = .error (.unsafeOutputDir path) →
      path = dir ∧ (reset dir d).2 = d) := by
  have hiff : (reset dir d).1 = .error (.unsafeOutputDir dir) ↔
      (isNavigation dir || encloses d d.cwd.place dir) = true := by
    rw [reset_of_standing h]
    split
    · simp_all
    · simp_all [recreate_not_refused]
  refine ⟨?_, ?_, ?_, ?_⟩
  · rw [hiff, refused_iff h hnames]
  · rw [hiff, refused_iff_names_iff h hnames]
  · exact fun hnav => or_iff_not_imp_left.mpr fun hne => names_of_navigation h hne hnav
  · intro path
    rw [reset_of_standing h]
    split
    · rintro hpath
      cases hpath
      exact ⟨rfl, rfl⟩
    · exact fun hpath => absurd hpath (recreate_not_refused dir path d)

/-- A disk on which a link leads to a directory with a file. -/
def linkedDisk : Disk :=
  ⟨.dir [("keys", .link "vault"), ("vault", .dir [("old.jks", .file [1] .data)])], .root⟩

theorem linkedDisk_standing : linkedDisk.Standing := ⟨rfl, by decide⟩

theorem linkedDisk_isEntryName : ∀ s ∈ linkedDisk.cwd.place, IsEntryName s :=
  fun _ hs => absurd hs List.not_mem_nil

/-- By the link and `..`, a path comes back to the working directory. -/
theorem reset_refuses_linked :
    (linkedDisk.Standing ∧ ∀ s ∈ linkedDisk.cwd.place, IsEntryName s) ∧
      (reset "keys/.." linkedDisk).1 = .error (.unsafeOutputDir "keys/..") := by
  refine ⟨⟨linkedDisk_standing, linkedDisk_isEntryName⟩,
    (reset_refuses_iff linkedDisk "keys/.." linkedDisk_standing linkedDisk_isEntryName).1.mpr
      (.inr ⟨[], ⟨by decide, by decide, 1, by decide, ?_⟩, List.nil_prefix⟩)⟩
  have hpath : Path.ofString "keys/.." = ⟨false, ["keys", ".."], false⟩ := by decide_cbv
  have htarget : Path.ofString "vault" = ⟨false, ["vault"], false⟩ := by decide_cbv
  have hkeys : IsName "keys" := ⟨by decide, by decide, by decide⟩
  have hvault : IsName "vault" := ⟨by decide, by decide, by decide⟩
  rw [hpath]
  have htail : Resolves linkedDisk.root.kindAt 0 [] ["vault", ".."] [] :=
    .enter (by decide) hvault (k := .dir) (by decide) (by simp)
      (.up (by decide) (by decide) .done)
  have hlink : linkedDisk.root.kindAt ([] ++ ["keys"]) = some (.link "vault") := by decide
  refine .link (by decide) hkeys hlink ?_
  rw [htarget]
  exact htail

/-! ## A path that goes too deep -/

/-- The path down by names and up again by as many `..`. -/
def downAndUp (names : List String) : String :=
  "/".intercalate (names ++ List.replicate names.length "..")

section DownAndUp

variable {d : Disk} {names : List String}

theorem ofString_downAndUp (hnames : ∀ s ∈ names, IsEntryName s) (hne : names ≠ []) :
    Path.ofString (downAndUp names) =
      ⟨false, names ++ List.replicate names.length "..", false⟩ := by
  refine ofString_intercalate (List.append_ne_nil_of_left_ne_nil hne _) fun s hs => ?_
  rcases List.mem_append.mp hs with hs | hs
  · exact ⟨(hnames s hs).ne_empty, (hnames s hs).no_slash⟩
  · rw [List.eq_of_mem_replicate hs]
    decide

theorem size_downAndUp (hne : names ≠ []) : (downAndUp names).utf8ByteSize + 1 =
    (names.map (·.utf8ByteSize + 1)).sum + names.length * 3 := by
  have hslash : "/".utf8ByteSize = 1 := rfl
  have hdots : "..".utf8ByteSize = 2 := rfl
  have hsize := size_absolutePath
    (List.append_ne_nil_of_left_ne_nil hne (List.replicate names.length ".."))
  rw [absolutePath, String.utf8ByteSize_append, hslash, List.map_append, List.sum_append,
    List.map_replicate, List.sum_replicate_nat, hdots] at hsize
  rw [downAndUp, Nat.add_comm, hsize]

/-- It leads to where it starts. -/
theorem names_downAndUp (hnames : ∀ s ∈ names, IsEntryName s) (hne : names ≠ [])
    (hdir : d.root.kindAt (d.cwd.place ++ names) = some .dir) (last : LastLink) :
    d.Names last (downAndUp names) d.cwd.place := by
  have hpath := ofString_downAndUp hnames hne
  refine ⟨?_, ?_, 0, Nat.zero_le _, ?_⟩
  · intro hempty
    rw [hempty] at hpath
    have hsteps := (congrArg Path.steps hpath).symm.trans steps_empty
    exact hne (List.append_eq_nil_iff.mp hsteps).1
  · intro hnul
    obtain ⟨s, hs, hmem⟩ := mem_steps_of_mem hnul (by decide)
    rw [hpath] at hs
    rcases List.mem_append.mp hs with hs | hs
    · exact (hnames s hs).no_nul hmem
    · rw [List.eq_of_mem_replicate hs] at hmem
      exact absurd hmem (by decide)
  · rw [hpath]
    exact Leads.down_up (fun s hs => (hnames s hs).isName) hdir

/-- A path to the working directory that ends in `..` empties it, and removes nothing more. -/
theorem removeAll_of_up (h : d.Standing) {dir : String}
    (hfits : dir.utf8ByteSize < pathLimit) (hq : d.Names .keep dir d.cwd.place)
    (hlast : (Path.ofString dir).steps.getLast? = some "..") :
    (removeAll dir d).2 = d.clear d.cwd.place := by
  obtain ⟨es, hat⟩ := Node.kindAt_eq_dir_iff.mp h.isDir
  have hpath := pathOf_of_fits hq.1 hq.2.1 hfits
  rw [removeAll, find_of_pathLeads h hpath hq.2.2]
  simp only [node?_ofPlace, hat, ofPlace_place]
  split
  · -- No directory is removed by `..`
    rename_i hrm
    obtain ⟨r, hr, -⟩ := rmdir_eq_ok hrm
    obtain ⟨_, s, -, hs, hname, -⟩ := rmdirPlace_eq_ok ((clear_cwd_standing h).2) hr
    cases hlast.symm.trans hs
    exact absurd rfl hname.ne_dotdot
  · rfl
  · rfl

/-- Where the names go too deep, the path down and up again is not refused, and after the reset
    there is no file left in the working directory. -/
theorem reset_of_deep (h : d.Standing) (hcwd : ∀ s ∈ d.cwd.place, IsEntryName s)
    (hnames : ∀ s ∈ names, IsEntryName s) (hne : names ≠ [])
    (hdir : d.root.kindAt (d.cwd.place ++ names) = some .dir)
    (hdeep : pathLimit ≤ (absolutePath (d.cwd.place ++ names)).utf8ByteSize)
    (hfits : (downAndUp names).utf8ByteSize < pathLimit) :
    (reset (downAndUp names) d).1 ≠ .error (.unsafeOutputDir (downAndUp names)) ∧
    ∀ q content mode, d.cwd.place <+: q →
      (reset (downAndUp names) d).2.root.kindAt q ≠ some (.file content mode) := by
  have hpath := ofString_downAndUp hnames hne
  have hups : List.replicate names.length ".." ≠ [] := by simpa using hne
  have href : ¬ (isNavigation (downAndUp names) ||
      encloses d d.cwd.place (downAndUp names)) = true := by
    rw [refused_iff h hcwd, hpath]
    rintro (hnav | ⟨q, ⟨-, -, n, -, hq⟩, -⟩)
    · obtain ⟨s, hs⟩ := List.exists_mem_of_ne_nil names hne
      rcases hnav s (List.mem_append_left _ hs) with rfl | rfl
      · exact (hnames "." hs).ne_dot rfl
      · exact (hnames ".." hs).ne_dotdot rfl
    · rw [hpath] at hq
      exact Resolves.not_of_deep (fun s hs => (hnames s hs).isName) hups hdir hdeep hq
  rw [reset_of_standing h, if_neg href]
  refine ⟨recreate_not_refused _ _ d, ?_⟩
  -- The removal leaves the empty directory, and then only directories are made
  have hlast : (Path.ofString (downAndUp names)).steps.getLast? = some ".." := by
    rw [hpath, List.getLast?_append_of_ne_nil _ hups, List.getLast?_replicate]
    simpa using hne
  have hremoved := removeAll_of_up h hfits (names_downAndUp hnames hne hdir .keep) hlast
  have hgrow := recreate_grows (downAndUp names) (by rw [hremoved]; exact (clear_cwd_standing h).2)
  rw [hremoved] at hgrow
  intro q content mode hle hk
  rcases hgrow.added q _ hk with hk | hk
  · cases hk
  · rw [clear, Node.kindAt_clear h.isDir] at hk
    split at hk
    · cases hk
    · rename_i hand
      rw [not_and_not_right] at hand
      rw [← hand hle, h.isDir] at hk
      cases hk

end DownAndUp

/-- Directories inside one another, around something. -/
def tower (names : List String) (inner : Node) : Node :=
  names.foldr (fun s t => .dir [(s, t)]) inner

theorem at?_tower (names : List String) (inner : Node) :
    (tower names inner).at? names = some inner := by
  induction names with
  | nil => rfl
  | cons s names ih =>
    have hchild : (tower (s :: names) inner).child? s = some (tower names inner) := by
      simp [tower, Node.child?, Node.entries?]
    rw [Node.at?, hchild]
    exact ih

theorem size_letters (n : Nat) : (String.ofList (List.replicate n 'n')).utf8ByteSize = n := by
  induction n with
  | zero => rfl
  | succ n ih =>
    rw [List.replicate_succ', String.ofList_append, String.utf8ByteSize_append, ih]
    rfl

theorem letters_isEntryName {n : Nat} (hpos : 2 < n) (hle : n ≤ maxName) :
    IsEntryName (String.ofList (List.replicate n 'n')) := by
  have hmem : ∀ c ∈ (String.ofList (List.replicate n 'n')).toList, c = 'n' := by
    intro c hc
    rw [String.toList_ofList] at hc
    exact List.eq_of_mem_replicate hc
  have hsize : ∀ s : String, s.utf8ByteSize ≤ 2 → String.ofList (List.replicate n 'n') ≠ s := by
    rintro _ hs rfl
    rw [size_letters] at hs
    exact Nat.not_lt.mpr hs hpos
  exact ⟨⟨hsize _ (by decide), hsize _ (by decide), hsize _ (by decide),
    fun h => absurd (hmem _ h) (by decide)⟩, fun h => absurd (hmem _ h) (by decide),
    (size_letters n).trans_le hle⟩

/-- A name of 250 letters. -/
def longName : String := String.ofList (List.replicate 250 'n')

theorem size_longName : longName.utf8ByteSize = 250 := size_letters _

theorem longName_isEntryName : IsEntryName longName :=
  letters_isEntryName (by decide) (by decide)

/-- A working directory with a file and a tower of sixteen directories, all of which have a long
    name. -/
def towerDisk : Disk :=
  ⟨.dir [(longName, .dir [(longName, tower (List.replicate 15 longName) (.dir [])),
    ("old.jks", .file [1] .data)])], .ofPlace [longName]⟩

/-- Sixteen long names down and sixteen times up, a path leads back to the working directory.
    Its canonical form is not found, and with the directory's files an old keystore is lost. -/
theorem reset_empties_cwd :
    towerDisk.Standing ∧ (∀ s ∈ towerDisk.cwd.place, IsEntryName s) ∧
    towerDisk.Names .follow (downAndUp (List.replicate 16 longName)) towerDisk.cwd.place ∧
    (reset (downAndUp (List.replicate 16 longName)) towerDisk).1 ≠
      .error (.unsafeOutputDir (downAndUp (List.replicate 16 longName))) ∧
    towerDisk.root.kindAt (towerDisk.cwd.place ++ ["old.jks"]) = some (.file [1] .data) ∧
    (reset (downAndUp (List.replicate 16 longName)) towerDisk).2.root.kindAt
      (towerDisk.cwd.place ++ ["old.jks"]) ≠ some (.file [1] .data) := by
  have hne : List.replicate 16 longName ≠ [] := by simp
  have hother : ("old.jks" == longName) = false := by
    rw [beq_eq_false_iff_ne]
    intro h
    exact absurd ((congrArg String.utf8ByteSize h).trans size_longName) (by decide)
  have hcwd : ∀ s ∈ towerDisk.cwd.place, IsEntryName s := fun s hs =>
    List.mem_singleton.mp hs ▸ longName_isEntryName
  have hnames : ∀ s ∈ List.replicate 16 longName, IsEntryName s := fun s hs =>
    List.eq_of_mem_replicate hs ▸ longName_isEntryName
  have hstanding : towerDisk.Standing := by
    refine ⟨rfl, Node.kindAt_eq_dir_iff.mpr ?_⟩
    simp [towerDisk, Node.at?, Node.child?, Node.entries?]
  have hold : towerDisk.root.kindAt (towerDisk.cwd.place ++ ["old.jks"]) =
      some (.file [1] .data) := by
    refine Node.kindAt_eq_file_iff.mpr ?_
    simp [towerDisk, Node.at?, Node.child?, Node.entries?, List.lookup_cons, hother]
  have hdir : towerDisk.root.kindAt (towerDisk.cwd.place ++ List.replicate 16 longName) =
      some .dir := by
    refine Node.kindAt_eq_dir_iff.mpr ⟨[], ?_⟩
    have hplace : towerDisk.cwd.place ++ List.replicate 16 longName =
        [longName, longName] ++ List.replicate 15 longName := rfl
    have htower : towerDisk.root.at? [longName, longName] =
        some (tower (List.replicate 15 longName) (.dir [])) := by
      simp [towerDisk, Node.at?, Node.child?, Node.entries?]
    rw [hplace, Node.at?_append, htower, Option.bind_some, at?_tower]
  have hdeep : pathLimit ≤
      (absolutePath (towerDisk.cwd.place ++ List.replicate 16 longName)).utf8ByteSize := by
    rw [size_absolutePath (by simp [towerDisk])]
    simp [towerDisk, size_longName, pathLimit]
  have hfits : (downAndUp (List.replicate 16 longName)).utf8ByteSize < pathLimit := by
    have hsize := size_downAndUp hne
    simp only [List.map_replicate, List.sum_replicate_nat, List.length_replicate,
      size_longName] at hsize
    rw [pathLimit]
    omega
  obtain ⟨hsafe, hlost⟩ := reset_of_deep hstanding hcwd hnames hne hdir hdeep hfits
  exact ⟨hstanding, hcwd, names_downAndUp hnames hne hdir .follow, hsafe, hold,
    hlost _ _ _ (List.prefix_append _ _)⟩

/-! ## What a reset can change -/

/-- A disk after a change that removed nothing but what is at or below the place `x`,
    and made nothing but directories. -/
structure ChangesBelow (x : Place) (d d' : Disk) : Prop where
  cwd_eq : d'.cwd = d.cwd
  kept : ∀ q k, d.root.kindAt q = some k → ¬ x <+: q → d'.root.kindAt q = some k
  added : ∀ q k, d'.root.kindAt q = some k → k = .dir ∨ d.root.kindAt q = some k

theorem ChangesBelow.of_grows {d d' : Disk} (x : Place) (h : Grows d d') :
    ChangesBelow x d d' where
  cwd_eq := h.cwd_eq
  kept q k hk _ := h.kept q k hk
  added := h.added

theorem ChangesBelow.trans {x : Place} {d d' d'' : Disk} (h : ChangesBelow x d d')
    (h' : ChangesBelow x d' d'') : ChangesBelow x d d'' where
  cwd_eq := h'.cwd_eq.trans h.cwd_eq
  kept q k hk hq := h'.kept q k (h.kept q k hk hq) hq
  added q k hk := (h'.added q k hk).elim .inl (h.added q k)

theorem ChangesBelow.standing {x : Place} {d d' : Disk} (h : ChangesBelow x d d')
    (hd : d.Standing) (hx : ¬ x <+: d.cwd.place) : d'.Standing where
  present := by rw [h.cwd_eq]; exact hd.present
  isDir := by rw [h.cwd_eq]; exact h.kept _ _ hd.isDir hx

theorem changesBelow_remove {d : Disk} (h : d.Standing) {x : Place} (hx : ¬ x <+: d.cwd.place) :
    ChangesBelow x d (d.remove x) := by
  have hne : x ≠ [] := fun hnil => hx (hnil ▸ List.nil_prefix)
  refine ⟨(remove_standing h hx).1, ?_, ?_⟩
  · intro q k hk hq
    rw [remove, Node.kindAt_remove _ hne, if_neg hq, hk]
  · intro q k hk
    rw [remove, Node.kindAt_remove _ hne] at hk
    split at hk
    · cases hk
    · exact .inr hk

theorem changesBelow_clear {d : Disk} (h : d.Standing) {x : Place} (hx : ¬ x <+: d.cwd.place)
    (hdir : d.root.kindAt x = some .dir) : ChangesBelow x d (d.clear x) := by
  refine ⟨(clear_standing h hx hdir).1, ?_, ?_⟩
  · intro q k hk hq
    rw [clear, Node.kindAt_clear hdir, if_neg fun hand => hq hand.1, hk]
  · intro q k hk
    rw [clear, Node.kindAt_clear hdir] at hk
    split at hk
    · cases hk
    · exact .inr hk

/-- The removal changes nothing but what the path names. -/
theorem changesBelow_of_removal {d : Disk} (h : d.Standing) {dir : String}
    {o : Except IoError Unit × Disk} (ho : Removal d dir o)
    (hsafe : ∀ q, d.Names .keep dir q → d.root.kindAt q = some .dir → ¬ q <+: d.cwd.place) :
    o.2 = d ∨ ∃ x, d.Names .keep dir x ∧ ¬ x <+: d.cwd.place ∧ ChangesBelow x d o.2 := by
  cases ho with
  | refused => exact .inl rfl
  | @unlinked q target hq hlink =>
    have hx := not_le_cwd_of_link h hlink
    exact .inr ⟨q, hq, hx, changesBelow_remove h hx⟩
  | @emptied q r hq hdir =>
    have hx := hsafe q hq hdir
    exact .inr ⟨q, hq, hx, changesBelow_clear h hx hdir⟩
  | @removed q hq hdir =>
    -- First all below the directory goes, then the directory itself
    have hx := hsafe q hq hdir
    obtain ⟨hcwd, hclear⟩ := clear_standing h hx hdir
    refine .inr ⟨q, hq, hx, (changesBelow_clear h hx hdir).trans ?_⟩
    exact changesBelow_remove hclear (by rwa [hcwd])

/-- A path that is not refused names no directory that encloses the working directory:
    where it ends in no link, the removal meets what the test saw. -/
theorem not_le_cwd_of_not_refused {d : Disk}
    (href : ¬ (dir = "" ∨ ∃ q, d.Names .follow dir q ∧ q <+: d.cwd.place)) {q : Place}
    (hq : d.Names .keep dir q) (hdir : d.root.kindAt q = some .dir) : ¬ q <+: d.cwd.place := by
  intro hle
  have hfollow : d.PathLeads .follow (Path.ofString dir) q :=
    hq.2.2.follow_of_keep fun target hk => by cases hdir.symm.trans hk
  exact href (.inr ⟨q, ⟨hq.1, hq.2.1, hfollow⟩, hle⟩)

/-- The removal of a path that is not refused. -/
theorem removeAll_changes {d : Disk} (h : d.Standing) {dir : String}
    (href : ¬ (dir = "" ∨ ∃ q, d.Names .follow dir q ∧ q <+: d.cwd.place)) :
    (removeAll dir d).2 = d ∨
      ∃ x, d.Names .keep dir x ∧ ¬ x <+: d.cwd.place ∧ ChangesBelow x d (removeAll dir d).2 :=
  changesBelow_of_removal h (removeAll_cases_of_safe h fun _ => not_le_cwd_of_not_refused href)
    fun _ => not_le_cwd_of_not_refused href

theorem removeAll_standing {d : Disk} (h : d.Standing) {dir : String}
    (href : ¬ (dir = "" ∨ ∃ q, d.Names .follow dir q ∧ q <+: d.cwd.place)) :
    (removeAll dir d).2.Standing := by
  rcases removeAll_changes h href with hsame | ⟨x, _, hcwd, hchange⟩
  · rwa [hsame]
  · exact hchange.standing h hcwd

/-- The disk after a reset: nothing is changed but for new directories, or nothing but
    what the path names. -/
theorem reset_changes {d : Disk} (h : d.Standing) (hnames : ∀ s ∈ d.cwd.place, IsEntryName s)
    {dir : String} (hlimit : d.InLimit dir) :
    Grows d (reset dir d).2 ∨
      ∃ x, d.Names .keep dir x ∧ ¬ x <+: d.cwd.place ∧ ChangesBelow x d (reset dir d).2 := by
  rw [reset_of_standing h]
  split
  · exact .inl (.refl d)
  · rename_i href
    rw [(refused_iff_names_iff h hnames).mpr hlimit] at href
    have hgrow := recreate_grows dir (removeAll_standing h href)
    rcases removeAll_changes h href with hsame | ⟨x, hx, hcwd, hchange⟩
    · rw [hsame] at hgrow
      exact .inl hgrow
    · exact .inr ⟨x, hx, hcwd, hchange.trans (.of_grows x hgrow)⟩

theorem reset_standing {d : Disk} (h : d.Standing) (hnames : ∀ s ∈ d.cwd.place, IsEntryName s)
    {dir : String} (hlimit : d.InLimit dir) : (reset dir d).2.Standing := by
  rcases reset_changes h hnames hlimit with hgrow | ⟨x, -, hcwd, hchange⟩
  · exact hgrow.standing h
  · exact hchange.standing h hcwd

/-- Whatever a reset answers, the working directory and all directories that enclose it
    are still there; every entry is as it was that is neither what the path named nor
    below it, no matter which links lead to it; and everything new is a directory.  This is
    so for every path that meets no limit to the length of paths. -/
theorem reset_confined (d : Disk) (dir : String) (h : d.Standing)
    (hnames : ∀ s ∈ d.cwd.place, IsEntryName s) (hlimit : d.InLimit dir) :
    let d' := (reset dir d).2
    (d'.cwd = d.cwd ∧ ∀ q, q <+: d.cwd.place → d'.root.kindAt q = some .dir) ∧
    (∀ q k, d.root.kindAt q = some k → (∀ x, d.Names .keep dir x → ¬ x <+: q) →
      d'.root.kindAt q = some k) ∧
    (∀ q k, d'.root.kindAt q = some k → k = .dir ∨ d.root.kindAt q = some k) := by
  intro d'
  have habove : ∀ q, q <+: d.cwd.place → d.root.kindAt q = some .dir :=
    fun q hq => Node.kindAt_dir_above hq h.isDir
  rcases reset_changes h hnames hlimit with hgrow | ⟨x, hx, hcwd, hchange⟩
  · -- Nothing was removed
    refine ⟨⟨hgrow.cwd_eq, fun q hq => hgrow.kept _ _ (habove q hq)⟩, ?_, hgrow.added⟩
    exact fun q k hk _ => hgrow.kept q k hk
  · -- What the path named was removed, which does not enclose the working directory
    refine ⟨⟨hchange.cwd_eq, fun q hq => ?_⟩, fun q k hk hq => ?_, hchange.added⟩
    · exact hchange.kept _ _ (habove q hq) fun hxq => hcwd (hxq.trans hq)
    · exact hchange.kept q k hk (hq x hx)

theorem linkedDisk_names : linkedDisk.Names .keep "keys" ["keys"] := by
  have hpath : Path.ofString "keys" = ⟨false, ["keys"], false⟩ := by decide_cbv
  have hlink : linkedDisk.root.kindAt ([] ++ ["keys"]) = some (.link "vault") := by decide
  refine ⟨by decide, by decide, 0, by decide, ?_⟩
  rw [hpath]
  exact .kept ⟨by decide, by decide, by decide⟩ hlink rfl

theorem linkedDisk_leads : linkedDisk.Names .follow "keys" ["vault"] := by
  have hpath : Path.ofString "keys" = ⟨false, ["keys"], false⟩ := by decide_cbv
  have htarget : Path.ofString "vault" = ⟨false, ["vault"], false⟩ := by decide_cbv
  have hlink : linkedDisk.root.kindAt ([] ++ ["keys"]) = some (.link "vault") := by decide
  have hvault : Leads linkedDisk.root.kindAt .follow 0 [] ["vault"] ["vault"] :=
    .enter ⟨by decide, by decide, by decide⟩ (k := .dir) (by decide) (by simp) .done
  refine ⟨by decide, by decide, 1, by decide, ?_⟩
  rw [hpath]
  refine .link ⟨by decide, by decide, by decide⟩ hlink (fun _ => rfl) ?_
  rw [htarget]
  exact hvault

/-- The link leads away from the working directory. -/
theorem linkedDisk_not_enclosing :
    ¬ ∃ q, linkedDisk.Names .follow "keys" q ∧ q <+: linkedDisk.cwd.place := by
  rintro ⟨q, hq, hle⟩
  rw [hq.2.2.unique linkedDisk_leads.2.2] at hle
  exact absurd hle (by decide)

theorem linkedDisk_inLimit : linkedDisk.InLimit "keys" :=
  fun q hq hle => absurd ⟨q, hq, hle⟩ linkedDisk_not_enclosing

theorem linkedDisk_encloses : encloses linkedDisk linkedDisk.cwd.place "keys" = false :=
  encloses_eq_false linkedDisk_standing linkedDisk_isEntryName (by decide)
    linkedDisk_not_enclosing

/-- What the removed link led to is kept. -/
theorem reset_confined_linked :
    (linkedDisk.Standing ∧ (∀ s ∈ linkedDisk.cwd.place, IsEntryName s) ∧
      linkedDisk.InLimit "keys") ∧
      (reset "keys" linkedDisk).2.root.kindAt ["vault", "old.jks"] = some (.file [1] .data) := by
  have hconfined := reset_confined linkedDisk "keys" linkedDisk_standing linkedDisk_isEntryName
    linkedDisk_inLimit
  refine ⟨⟨linkedDisk_standing, linkedDisk_isEntryName, linkedDisk_inLimit⟩,
    hconfined.2.1 _ _ (by decide) fun x hx => ?_⟩
  rw [hx.2.2.unique linkedDisk_names.2.2]
  decide

end OutputDir

end Keysmith
