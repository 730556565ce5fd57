import Keysmith.Proofs.OutputDir
import Keysmith.Proofs.PathLoss

/-!
# A relative path and the absolute one

A relative path and the same path put behind the working directory's go the same way on every
disk with that working directory.  All that a reset does looks at the disk by its path, so it
comes to the same by either:

* `sameWay`        the two paths lead to the same places
* `createAll_twin`  by the two, the same directories are made
* `refused_twin`   of the two, either both are refused or none
* `reset_absolute`  by the two, a reset has the same outcome and leaves the same disk
-/

namespace Keysmith

namespace Disk

/-! ## Paths that go the same way -/

section Follow

variable {d : Disk} {last : LastLink} {links : Nat} {here : Place} {steps : List String}

/-- Names that spell the way to a directory lead down to it. -/
theorem follow_down {names : List String} (hnames : ∀ s ∈ names, IsName s)
    (hdir : d.root.kindAt (here ++ names) = some .dir) :
    d.follow last links (.ofPlace here) (names ++ steps) =
      d.follow last links (.ofPlace (here ++ names)) steps := by
  induction names generalizing here with
  | nil => simp
  | cons s names ih =>
    rw [List.append_cons] at hdir ⊢
    have hnext : d.root.kindAt (here ++ [s]) = some .dir :=
      Node.kindAt_dir_above (List.prefix_append _ _) hdir
    rw [List.cons_append, follow_enter (hnames s List.mem_cons_self) hnext (by simp),
      ih (fun t ht => hnames t (List.mem_cons_of_mem _ ht)) hdir]

theorem follow_stays {stays : List String} (hstays : ∀ s ∈ stays, s = ".")
    (hdir : d.root.kindAt here = some .dir) :
    d.follow last links (.ofPlace here) (stays ++ steps) =
      d.follow last links (.ofPlace here) steps := by
  induction stays with
  | nil => rfl
  | cons s stays ih =>
    obtain rfl := hstays s List.mem_cons_self
    rw [List.cons_append, follow_stay hdir, ih fun t ht => hstays t (List.mem_cons_of_mem _ ht)]

end Follow

/-- The working directory exists, and it is at a place. -/
structure StandingAt (cwd : Place) (d : Disk) : Prop extends d.Standing where
  place_eq : d.cwd.place = cwd

theorem Grows.standingAt {cwd : Place} {d d' : Disk} (h : Grows d d') (hd : d.StandingAt cwd) :
    d'.StandingAt cwd :=
  ⟨h.standing hd.toStanding, by rw [h.cwd_eq, hd.place_eq]⟩

/-- Two paths go the same way on all disks with a working directory. -/
structure SameWay (cwd : Place) (p p' : Path) : Prop where
  reach : ∀ {d : Disk} (last : LastLink), d.StandingAt cwd →
    d.reachPath last p' = d.reachPath last p
  locate : ∀ {d : Disk}, d.StandingAt cwd → d.locatePath p' = d.locatePath p

/-- Steps from the working directory, with steps before them that stay, go the same way as they
    do behind the names of its place. -/
theorem sameWay {cwd : Place} (hcwd : ∀ s ∈ cwd, IsName s) {stays steps : List String}
    (hstays : ∀ s ∈ stays, s = ".") (hne : steps ≠ []) (slash : Bool) :
    SameWay cwd ⟨false, stays ++ steps, slash⟩ ⟨true, cwd ++ steps, slash⟩ := by
  have hfollow {d : Disk} (hd : d.StandingAt cwd) (last : LastLink) (rest : List String) :
      d.follow last maxLinks (.ofPlace []) (cwd ++ rest) =
        d.follow last maxLinks (.ofPlace cwd) (stays ++ rest) := by
    have hdir : d.root.kindAt cwd = some .dir := hd.place_eq ▸ hd.isDir
    rw [follow_down hcwd hdir, List.nil_append, follow_stays hstays hdir]
  have hstart {d : Disk} (hd : d.StandingAt cwd) :
      start ⟨true, cwd ++ steps, slash⟩ d.cwd = .ofPlace [] ∧
        start ⟨false, stays ++ steps, slash⟩ d.cwd = .ofPlace cwd :=
    ⟨rfl, hd.cwd_eq.trans (by rw [hd.place_eq])⟩
  refine ⟨fun {d} last hd => ?_, fun {d} hd => ?_⟩
  · obtain ⟨habsolute, hrelative⟩ := hstart hd
    rw [reachPath, reachPath, walk_eq, walk_eq, habsolute, hrelative, List.append_assoc,
      List.append_assoc]
    exact hfollow hd last _
  · obtain ⟨habsolute, hrelative⟩ := hstart hd
    have hlast : lastStep ⟨true, cwd ++ steps, slash⟩ =
        lastStep ⟨false, stays ++ steps, slash⟩ := by
      simp only [lastStep, List.getLast?_append_of_ne_nil _ hne]
    rw [locatePath, locatePath, locateFrom, locateFrom, habsolute, hrelative, hlast]
    simp only [List.dropLast_append_of_ne_nil hne, hfollow hd]

/-! ## The same operations -/

namespace SameWay

variable {cwd : Place} {p p' : Path} {d : Disk}

theorem findPath_eq (h : SameWay cwd p p') (hd : d.StandingAt cwd) (last : LastLink) :
    d.findPath last p' = d.findPath last p := by
  rw [findPath, findPath, h.reach last hd]

theorem leadsToDirectory_eq (h : SameWay cwd p p') (hd : d.StandingAt cwd) :
    d.leadsToDirectory p' = d.leadsToDirectory p := by
  rw [leadsToDirectory, leadsToDirectory, h.findPath_eq hd]

theorem rmdirPath_eq (h : SameWay cwd p p') (hd : d.StandingAt cwd) :
    d.rmdirPath p' = d.rmdirPath p := by
  rw [rmdirPath, rmdirPath, rmdirPlace, rmdirPlace, h.locate hd]

theorem ensureDirectory_eq (h : SameWay cwd p p') (hd : d.StandingAt cwd) :
    ensureDirectory p' d = ensureDirectory p d := by
  rw [ensureDirectory, ensureDirectory, mkdirPath, mkdirPath, h.locate hd, h.leadsToDirectory_eq hd]

/-- By both paths the same is made, if what is above them is. -/
theorem createAfter_eq (h : SameWay cwd p p') (hd : d.StandingAt cwd)
    {above above' : Disk → Except OsError Unit × Disk}
    (habove : ∀ {d : Disk}, d.StandingAt cwd → above' d = above d)
    (hgrows : ∀ {d : Disk}, d.Standing → Grows d (above d).2) :
    createAfter above' p' d = createAfter above p d := by
  have hfirst := ensureDirectory_grows hd.toStanding p
  rw [createAfter, createAfter, h.ensureDirectory_eq hd]
  generalize ensureDirectory p d = o at hfirst
  obtain ⟨r, d₁⟩ := o
  have hd₁ : d₁.StandingAt cwd := hfirst.standingAt hd
  have hup := hgrows hd₁.toStanding
  rcases r with e | u
  · cases e with
    | noEntry =>
      dsimp only
      rw [habove hd₁]
      generalize above d₁ = o at hup
      obtain ⟨r₂, d₂⟩ := o
      have hd₂ : d₂.StandingAt cwd := hup.standingAt hd₁
      cases r₂ with
      | error e => rfl
      | ok u => exact h.ensureDirectory_eq hd₂
    | _ => rfl
  · rfl

end SameWay

/-- Making the directories of a plain path to a directory makes nothing. -/
theorem createComponents_eq_self {d : Disk} (h : d.Standing) {absolute : Bool}
    {comps : List String} (hsteps : Plain comps)
    (hdir : d.root.kindAt (d.spelled ⟨absolute, comps.reverse, false⟩) = some .dir) :
    createComponents absolute comps d = (.ok (), d) := by
  cases comps with
  | nil => rfl
  | cons name above =>
    exact createAfter_of_made (ensureDirectory_eq_self h
      (fun s hs => hsteps s (List.mem_reverse.mp hs)) hdir)

/-- The directories of a relative path are made alike by the absolute one.  The components are
    given the last one first. -/
theorem createComponents_twin {cwd : Place} (hcwd : ∀ s ∈ cwd, IsName s) {stays : List String}
    (hstays : ∀ s ∈ stays, s = ".") (comps : List String) {d : Disk} (hd : d.StandingAt cwd) :
    createComponents true (comps ++ cwd.reverse) d = createComponents false (comps ++ stays) d := by
  induction comps generalizing d with
  | nil =>
    -- All that is left is the working directory itself
    have hdir : d.root.kindAt cwd = some .dir := hd.place_eq ▸ hd.isDir
    have hnames := names_eq_self hcwd
    have hnone : names stays.reverse = [] := by
      refine List.filter_eq_nil_iff.mpr fun s hs => ?_
      simpa using hstays s (List.mem_reverse.mp hs)
    rw [List.nil_append, List.nil_append, createComponents_eq_self hd.toStanding,
      createComponents_eq_self hd.toStanding]
    · exact fun s hs => .inl (hstays s hs)
    · simpa [spelled, startPlace, hnone] using hd.isDir
    · exact fun s hs => .inr (hcwd s (List.mem_reverse.mp hs))
    · simpa [spelled, startPlace, hnames] using hdir
  | cons name above ih =>
    have hway : SameWay cwd ⟨false, (name :: above ++ stays).reverse, false⟩
        ⟨true, (name :: above ++ cwd.reverse).reverse, false⟩ := by
      rw [List.reverse_append, List.reverse_append, List.reverse_reverse]
      exact sameWay hcwd (fun s hs => hstays s (List.mem_reverse.mp hs)) (by simp) false
    exact hway.createAfter_eq hd (fun hd' => ih hd') fun hd' => createComponents_grows _ _ hd'

theorem components_absolute (steps : List String) (slash : Bool) :
    (⟨true, steps, slash⟩ : Path).components = names steps := by
  cases steps with
  | nil => rfl
  | cons first rest => simp [Path.components, names]

/-- At most one step that stays is kept before the names of a relative path. -/
theorem components_relative (steps : List String) (slash : Bool) :
    ∃ stays, (∀ s ∈ stays, s = ".") ∧
      (⟨false, steps, slash⟩ : Path).components = stays ++ names steps := by
  cases steps with
  | nil => exact ⟨[], by simp, rfl⟩
  | cons first rest =>
    by_cases hdot : first = "."
    · exact ⟨["."], by simp, by simp [Path.components, names, hdot]⟩
    · exact ⟨[], by simp, by simp [Path.components, names, hdot]⟩

section Twin

variable {cwd : Place} {dir path : String} {steps : List String} {slash : Bool} {d : Disk}

/-- By the two paths, the same directories are made. -/
theorem createAll_twin (hcwd : ∀ s ∈ cwd, IsName s) (hdir : pathOf dir = .ok ⟨false, steps, slash⟩)
    (hpath : pathOf path = .ok ⟨true, cwd ++ steps, slash⟩) (hne : names steps ≠ [])
    (hd : d.StandingAt cwd) : createAll path d = createAll dir d := by
  have hsteps : steps ≠ [] := by
    rintro rfl
    exact hne rfl
  have hnames := names_eq_self hcwd
  obtain ⟨stays, hstays, hrelative⟩ := components_relative steps slash
  have hrev : (names steps).reverse ≠ [] := by simpa using hne
  have htail : (⟨false, steps, slash⟩ : Path).components.reverse.tail =
      (names steps).reverse.tail ++ stays.reverse := by
    rw [hrelative, List.reverse_append, List.tail_append_of_ne_nil hrev]
  have htail' : (⟨true, cwd ++ steps, slash⟩ : Path).components.reverse.tail =
      (names steps).reverse.tail ++ cwd.reverse := by
    rw [components_absolute, names_append, hnames, List.reverse_append,
      List.tail_append_of_ne_nil hrev]
  have hway := sameWay hcwd (List.forall_mem_nil (· = ".")) hsteps slash
  have hstays' : ∀ s ∈ stays.reverse, s = "." := fun s hs => hstays s (List.mem_reverse.mp hs)
  simp only [createAll, hdir, hpath, htail, htail']
  rw [hway.createAfter_eq hd (fun hd' => createComponents_twin hcwd hstays' _ hd')
    fun hd' => createComponents_grows _ _ hd']
  rfl

/-- By the two paths, the same is removed, if that is away from the working directory. -/
theorem removeAll_twin {p p' : Path} (hway : SameWay cwd p p') (hdir : pathOf dir = .ok p)
    (hpath : pathOf path = .ok p') (hd : d.StandingAt cwd)
    (hsafe : ∀ q, d.PathLeads .keep p q → d.root.kindAt q = some .dir → ¬ q <+: d.cwd.place) :
    removeAll path d = removeAll dir d := by
  have hfind : d.find .keep path = d.find .keep dir := by
    simp only [find, hdir, hpath, bind, Except.bind, hway.findPath_eq hd]
  rw [removeAll, removeAll, hfind]
  split
  · rfl
  · rename_i spot hspot
    obtain ⟨q, rfl, -, -, hq⟩ := names_of_find hd.toStanding hspot
    obtain ⟨-, -, rfl⟩ := pathOf_eq_ok hdir
    rw [node?_ofPlace]
    split
    · rfl
    · rename_i es hat
      have hk : d.root.kindAt q = some .dir := Node.kindAt_eq_dir_iff.mpr ⟨es, hat⟩
      obtain ⟨hcwd₁, hd₁⟩ := clear_standing hd.toStanding (hsafe q hq hk) hk
      have hat₁ : (d.clear q).StandingAt cwd := ⟨hd₁, by rw [hcwd₁, hd.place_eq]⟩
      have hrmdir : (d.clear q).rmdir path = (d.clear q).rmdir dir := by
        simp only [rmdir, hdir, hpath, bind, Except.bind, hway.rmdirPath_eq hat₁]
      simp only [ofPlace_place, hrmdir]
    · rfl

end Twin

end Disk

namespace OutputDir

open Disk

/-- A failure to prepare the output directory, told of another path. -/
def retold (path : String) : Failure → Failure
  | .outputDir _ cause => .outputDir path cause
  | .unsafeOutputDir _ => .unsafeOutputDir path
  | e => e

/-- Where both paths remove and make the same, emptying comes to the same. -/
theorem recreate_twin {dir path : String} {d : Disk} (hrm : removeAll path d = removeAll dir d)
    (hmk : (removeAll dir d).1 = .ok () ∨ (removeAll dir d).1 = .error (.os .noEntry) →
      createAll path (removeAll dir d).2 = createAll dir (removeAll dir d).2) :
    recreate path d = ((recreate dir d).1.mapError (retold path), (recreate dir d).2) := by
  rcases hr : removeAll dir d with ⟨r, d₁⟩
  rw [hr] at hmk hrm
  simp only [recreate, hr, hrm]
  by_cases hgone : r = .ok () ∨ r = .error (.os .noEntry)
  · -- Making the directory is told of the other path
    have hmade : createAll path d₁ = createAll dir d₁ := hmk hgone
    rcases hgone with rfl | rfl
    all_goals
      simp only [hmade]
      generalize createAll dir d₁ = o
      obtain ⟨_ | u, d₂⟩ := o
      · rename_i e
        cases e with
        | os code => cases code <;> rfl
        | _ => rfl
      · rfl
  · -- And so is a removal that failed
    rcases r with e | u
    · split
      · rename_i heq
        cases heq
        exact absurd (.inr rfl) hgone
      · rename_i heq
        cases heq
        rfl
      · rename_i heq
        cases heq
    · exact absurd (.inl rfl) hgone

section Reset

variable {d : Disk} {dir : String}

/-- Of the two paths, either both are refused or none. -/
theorem refused_twin (h : d.Standing) (hnames : ∀ s ∈ d.cwd.place, IsEntryName s)
    (hrel : dir.toList.head? ≠ some '/')
    (hlimit : (Path.join (absolutePath d.cwd.place) dir).utf8ByteSize < pathLimit) :
    let path := Path.join (absolutePath d.cwd.place) dir
    (isNavigation path || encloses d d.cwd.place path) =
      (isNavigation dir || encloses d d.cwd.place dir) := by
  intro path
  have hcomponents : ∀ s ∈ d.cwd.place, IsComponent s := fun s hs => (hnames s hs).toIsComponent
  obtain ⟨hne, hnul⟩ := join_absolutePath_text hnames hrel
  obtain ⟨slash, -, hpath⟩ := ofString_join_absolutePath hcomponents hrel
  -- What they lead to is looked for by the same path
  have habsolute : path.toList.head? = some '/' := by
    rw [toList_join_absolutePath hcomponents hrel]
    rfl
  have htarget : target? d d.cwd.place path = target? d d.cwd.place dir := by
    rw [target?, target?, join_of_absolute habsolute]
  have hencloses : encloses d d.cwd.place path = encloses d d.cwd.place dir := by
    unfold encloses
    rw [htarget]
  rw [Bool.eq_iff_iff, Bool.or_eq_true, Bool.or_eq_true, ← hencloses, isNavigation_iff,
    isNavigation_iff]
  constructor
  · refine Or.imp_left fun hnav s hs => hnav s ?_
    rw [hpath]
    exact List.mem_append_right _ hs
  · -- A relative path that only moves between directories is found by the absolute one
    rintro (hnav | henc)
    · obtain ⟨hdirNul, -⟩ := walk_of_navigation hnav
      have htail : ∀ s ∈ (Path.ofString dir).steps ++ (if slash then ["."] else []),
          s = "." ∨ s = ".." := by
        intro s hs
        rcases List.mem_append.mp hs with hs | hs
        · exact hnav s hs
        · split at hs
          · exact .inl (List.mem_singleton.mp hs)
          · cases hs
      have hsize := size_absolutePath_of_join hcomponents hrel (by decide) hlimit
      obtain ⟨q, hq, hle⟩ : ∃ q, Resolves d.root.kindAt 0 []
          (d.cwd.place ++ ((Path.ofString dir).steps ++ if slash then ["."] else [])) q ∧
            q <+: [] ++ d.cwd.place :=
        Resolves.of_navigation (fun s hs => (hnames s hs).isName) h.isDir hsize htail
      refine .inr ((encloses_iff h hnames hne).mpr
        ⟨q, ⟨hne, mt hnul.mp hdirNul, 0, Nat.zero_le _, ?_⟩, hle⟩)
      rw [hpath, walk_eq, List.append_assoc]
      exact hq
    · exact .inr henc

/-- By a relative path and by the same path behind the working directory's, a reset has the same
    outcome, in which only the path of a failure differs, and leaves the same disk.  This is so
    where no limit to the length of paths is met. -/
theorem reset_absolute (d : Disk) (dir : String) (h : d.Standing)
    (hnames : ∀ s ∈ d.cwd.place, IsEntryName s) (hrel : dir.toList.head? ≠ some '/')
    (hlimit : (Path.join (absolutePath d.cwd.place) dir).utf8ByteSize < pathLimit)
    (hdeep : d.InLimit dir) :
    let path := Path.join (absolutePath d.cwd.place) dir
    reset path d = ((reset dir d).1.mapError (retold path), (reset dir d).2) := by
  intro path
  rw [reset_of_standing h, reset_of_standing h, refused_twin h hnames hrel hlimit]
  by_cases href : (isNavigation dir || encloses d d.cwd.place dir) = true
  · rw [if_pos href, if_pos href]
    rfl
  rw [if_neg href, if_neg href]
  rw [(refused_iff_names_iff h hnames).mpr hdeep] at href
  have hne : dir ≠ "" := fun hempty => href (.inl hempty)
  obtain ⟨hpathNe, hpathNul⟩ := join_absolutePath_text hnames hrel
  obtain ⟨slash, hslash, hpath⟩ :=
    ofString_join_absolutePath (fun s hs => (hnames s hs).toIsComponent) hrel
  obtain rfl := hslash hne
  have hd : d.StandingAt d.cwd.place := ⟨h, rfl⟩
  have hcwd : ∀ s ∈ d.cwd.place, IsName s := fun s hs => (hnames s hs).isName
  have hdir : Path.ofString dir =
      ⟨false, (Path.ofString dir).steps, (Path.ofString dir).slash⟩ := by
    have habsolute : (Path.ofString dir).absolute = false := by simpa [Path.ofString] using hrel
    rw [← habsolute]
  have hway : SameWay d.cwd.place (Path.ofString dir) (Path.ofString path) := by
    rw [hdir, hpath]
    exact sameWay hcwd (List.forall_mem_nil (· = ".")) (steps_ne_nil_of_relative hne hrel) _
  by_cases hnul : '\x00' ∈ dir.toList
  · -- Neither text is a path
    have hrm {text : String} (hmem : '\x00' ∈ text.toList) :
        removeAll text d = (.error .nulInPath, d) := by
      have hp : pathOf text = .error .nulInPath := by rw [pathOf, if_pos (by simpa using hmem)]
      simp only [removeAll, find, hp, bind, Except.bind]
    refine recreate_twin ((hrm (hpathNul.mpr hnul)).trans (hrm hnul).symm) fun hgone => ?_
    rw [hrm hnul] at hgone
    rcases hgone with hgone | hgone <;> cases hgone
  · -- What is removed is away from the working directory, so that is there still for making
    have hdirOf := pathOf_of_fits hne hnul ((size_le_join _ dir).trans_lt hlimit)
    have hpathOf := pathOf_of_fits hpathNe (mt hpathNul.mp hnul) hlimit
    have hrm := removeAll_twin hway hdirOf hpathOf hd fun q hq hk =>
      not_le_cwd_of_not_refused href ⟨hne, hnul, hq⟩ hk
    refine recreate_twin hrm fun _ => ?_
    have hd₁ : (removeAll dir d).2.StandingAt d.cwd.place := by
      refine ⟨removeAll_standing h href, ?_⟩
      rcases removeAll_changes h href with hsame | ⟨x, -, -, hchange⟩
      · rw [hsame]
      · rw [hchange.cwd_eq]
    have hnamed : names (Path.ofString dir).steps ≠ [] := by
      -- Otherwise all steps stay, and the path is refused
      intro hnil
      rw [names, List.filter_eq_nil_iff] at hnil
      obtain ⟨q, hq, hle⟩ := names_of_navigation h hne fun s hs => .inl (by simpa using hnil s hs)
      exact href (.inr ⟨q, hq, hle⟩)
    exact createAll_twin hcwd (hdir ▸ hdirOf) (hpathOf.trans (congrArg _ hpath)) hnamed hd₁

end Reset

/-- A disk with a working directory below the root. -/
def workDisk : Disk := ⟨.dir [("work", .dir [("keys", .dir [])])], .ofPlace ["work"]⟩

/-- The directory above is refused by its absolute path, which does not only move between
    directories. -/
theorem reset_absolute_above :
    (workDisk.Standing ∧ (∀ s ∈ workDisk.cwd.place, IsEntryName s) ∧ workDisk.InLimit "..") ∧
      isNavigation "/work/.." = false ∧
      (reset "/work/.." workDisk).1 = .error (.unsafeOutputDir "/work/..") := by
  have hpath : Path.join (absolutePath workDisk.cwd.place) ".." = "/work/.." := by decide
  have hstanding : workDisk.Standing := ⟨rfl, by decide⟩
  have hnames : ∀ s ∈ workDisk.cwd.place, IsEntryName s := by
    intro s hs
    rw [List.mem_singleton.mp hs]
    exact ⟨⟨by decide, by decide, by decide, by decide⟩, by decide, by decide⟩
  have hnav : isNavigation ".." = true := by decide_cbv
  have hdeep : workDisk.InLimit ".." := fun _ _ _ => .inl (isNavigation_iff.mp hnav)
  have hrefused : (reset ".." workDisk).1 = .error (.unsafeOutputDir "..") := by
    rw [reset_of_standing hstanding, hnav]
    rfl
  have htwin := reset_absolute workDisk ".." hstanding hnames (by decide)
    (by rw [hpath]; decide) hdeep
  rw [hpath] at htwin
  refine ⟨⟨hstanding, hnames, hdeep⟩, by decide_cbv, ?_⟩
  rw [htwin, hrefused]
  rfl

end OutputDir

end Keysmith
