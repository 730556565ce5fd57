import Keysmith.FileSystem.Clear
import Keysmith.Proofs.Resolution

/-!
# Operations on a disk through its view

Each operation on the file system is told by what it does to the view of the tree.
The working directory is taken to exist (`Standing`); then paths are followed from a
place, and `PathLeads` says where they lead.

* `mkdirPath_eq_ok_iff`  a directory is made exactly where a name is free
* `removeAll_cases`      what removing a path can leave
* `createAll_grows`      making directories only adds directories
-/

namespace Keysmith.Disk

/-- The working directory exists. -/
structure Standing (d : Disk) : Prop where
  present : d.cwd.removed = 0
  isDir : d.root.kindAt d.cwd.place = some .dir

theorem Standing.cwd_eq {d : Disk} (h : d.Standing) : d.cwd = .ofPlace d.cwd.place := by
  rw [Spot.ofPlace, ← h.present]

theorem Standing.start_eq {d : Disk} (h : d.Standing) (p : Path) :
    start p d.cwd = .ofPlace (startPlace p d.cwd.place) := by
  rw [h.cwd_eq, start_ofPlace, ofPlace_place]

/-- A path leads from the working directory to a place. -/
def PathLeads (d : Disk) (last : LastLink) (p : Path) (q : Place) : Prop :=
  ∃ n, n ≤ maxLinks ∧ Leads d.root.kindAt last n (startPlace p d.cwd.place) p.walk q

/-- All but the last step of a path lead from the working directory to a directory. -/
def Above (d : Disk) (p : Path) (q : Place) : Prop :=
  d.root.kindAt q = some .dir ∧
    ∃ n, n ≤ maxLinks ∧
      Leads d.root.kindAt .follow n (startPlace p d.cwd.place) p.steps.dropLast q

/-- A text is a path that names a place, from the working directory.  With `keep`, a
    link in the last step is what the path names. -/
def Names (d : Disk) (last : LastLink) (text : String) (q : Place) : Prop :=
  text ≠ "" ∧ '\x00' ∉ text.toList ∧ d.PathLeads last (Path.ofString text) q

theorem PathLeads.unique {d : Disk} {last : LastLink} {p : Path} {q r : Place}
    (hq : d.PathLeads last p q) (hr : d.PathLeads last p r) : q = r := by
  obtain ⟨n, _, hq⟩ := hq
  obtain ⟨m, _, hr⟩ := hr
  exact hq.unique hr

/-- Where a path does not end in a link, keeping links and following them agree. -/
theorem PathLeads.follow_of_keep {d : Disk} {p : Path} {q : Place}
    (h : d.PathLeads .keep p q) (hq : ∀ target, d.root.kindAt q ≠ some (.link target)) :
    d.PathLeads .follow p q := by
  obtain ⟨n, hn, h⟩ := h
  exact ⟨n, hn, h.follow_of_keep hq⟩

/-! ## Paths and their last steps -/

theorem walk_eq (p : Path) : p.walk = p.steps ++ if p.slash then ["."] else [] := by
  cases h : p.slash <;> simp [Path.walk, h]

theorem lastStep_eq_name_iff {p : Path} {s : String} :
    lastStep p = .name s ↔ p.steps.getLast? = some s ∧ s ≠ "." ∧ s ≠ ".." := by
  rw [lastStep]
  cases p.steps.getLast? with
  | none => simp
  | some t =>
    -- `.` and `..` are no names, everything else is one
    by_cases hdot : t = "."
    · simp only [if_pos hdot, Option.some.injEq, reduceCtorEq, false_iff]
      rintro ⟨rfl, h, _⟩
      exact h hdot
    · by_cases hup : t = ".."
      · simp only [if_neg hdot, if_pos hup, Option.some.injEq, reduceCtorEq, false_iff]
        rintro ⟨rfl, _, h⟩
        exact h hup
      · simp only [if_neg hdot, if_neg hup, LastStep.name.injEq, Option.some.injEq]
        constructor
        · rintro rfl
          exact ⟨rfl, hdot, hup⟩
        · exact fun h => h.1

theorem steps_eq_of_getLast? {p : Path} {s : String} (h : p.steps.getLast? = some s) :
    p.steps = p.steps.dropLast ++ [s] :=
  (List.dropLast_append_getLast? s h).symm

/-- A path to an entry that is no link leads to that entry. -/
theorem Above.pathLeads {d : Disk} {p : Path} {q : Place} {s : String} {k : Kind}
    (h : d.Above p q) (hlast : p.steps.getLast? = some s) (hs : IsName s)
    (hk : d.root.kindAt (q ++ [s]) = some k) (hlink : ∀ target, k ≠ .link target)
    (hslash : p.slash = true → k = .dir) (last : LastLink) : d.PathLeads last p (q ++ [s]) := by
  obtain ⟨_, n, hn, h⟩ := h
  refine ⟨n, hn, ?_⟩
  -- What is left after the directory: the name, and a slash only behind a directory
  have hend : Leads d.root.kindAt last 0 (q ++ [s]) (if p.slash then ["."] else []) (q ++ [s]) := by
    cases hp : p.slash with
    | false => exact .done
    | true => exact .stay (hslash hp ▸ hk) .done
  have htail := Leads.enter hs hk hlink hend
  have := h.append htail (by simp)
  rwa [walk_eq, steps_eq_of_getLast? hlast, List.append_assoc]

/-! ## Following and locating -/

theorem findPath_eq_ok_iff {d : Disk} (h : d.Standing) {last : LastLink} {p : Path} {s : Spot} :
    d.findPath last p = .ok s ↔ ∃ q, s = .ofPlace q ∧ d.PathLeads last p q := by
  have hiff : d.findPath last p = .ok s ↔
      d.follow last maxLinks (.ofPlace (startPlace p d.cwd.place)) p.walk = .ok (.at s) := by
    rw [findPath, reachPath, h.start_eq]
    split <;> simp_all
  rw [hiff, follow_eq_at_iff]
  constructor
  · rintro ⟨n, q, hn, hs, hq⟩
    exact ⟨q, hs, n, hn, hq⟩
  · rintro ⟨q, hs, n, hn, hq⟩
    exact ⟨n, q, hn, hs, hq⟩

theorem locatePath_eq_ok_iff {d : Disk} (h : d.Standing) {p : Path} {s : Spot} {l : LastStep} :
    d.locatePath p = .ok (s, l) ↔ l = lastStep p ∧ ∃ q, s = .ofPlace q ∧ d.Above p q := by
  have hiff : d.locatePath p = .ok (s, l) ↔ l = lastStep p ∧ (d.entries? s).isNone = false ∧
      d.follow .follow maxLinks (.ofPlace (startPlace p d.cwd.place)) p.steps.dropLast =
        .ok (.at s) := by
    rw [locatePath, locateFrom, h.start_eq]
    split
    · simp_all
    · simp_all
    · rename_i spot hspot
      rw [hspot]
      by_cases hdir : (d.entries? spot).isNone = true
      · rw [if_pos hdir]
        simp only [reduceCtorEq, Except.ok.injEq, Reached.at.injEq, false_iff, not_and]
        rintro _ hs rfl
        exact absurd hdir (by simp [hs])
      · rw [if_neg hdir]
        simp only [Except.ok.injEq, Prod.mk.injEq, Reached.at.injEq]
        constructor
        · rintro ⟨rfl, rfl⟩
          exact ⟨rfl, Bool.eq_false_iff.mpr hdir, rfl⟩
        · rintro ⟨rfl, _, rfl⟩
          exact ⟨rfl, rfl⟩
  rw [hiff, follow_eq_at_iff]
  have hdir : ∀ q, (d.entries? (.ofPlace q)).isNone = false ↔ d.root.kindAt q = some .dir := by
    intro q
    rw [Bool.eq_false_iff, Ne, not_isNone_entries?]
  constructor
  · rintro ⟨hl, hs, n, q, hn, rfl, hq⟩
    exact ⟨hl, q, rfl, (hdir q).mp hs, n, hn, hq⟩
  · rintro ⟨hl, q, rfl, hk, n, hn, hq⟩
    exact ⟨hl, (hdir q).mpr hk, n, q, hn, rfl, hq⟩

/-- A path that is too long, empty or holds a NUL character names nothing. -/
theorem pathOf_eq_ok {s : String} {p : Path} (h : pathOf s = .ok p) :
    s ≠ "" ∧ '\x00' ∉ s.toList ∧ p = Path.ofString s := by
  rw [pathOf] at h
  split at h
  · cases h
  · rename_i hnul
    split at h
    · cases h
    · split at h
      · cases h
      · rename_i hempty
        cases h
        exact ⟨by simpa using hempty, by simpa using hnul, rfl⟩

/-- Every other text is a path. -/
theorem pathOf_of_fits {text : String} (hne : text ≠ "") (hnul : '\x00' ∉ text.toList)
    (hlimit : text.utf8ByteSize < pathLimit) : pathOf text = .ok (Path.ofString text) := by
  rw [pathOf, if_neg (by simpa using hnul), if_neg (Nat.not_le.mpr hlimit),
    if_neg (by simpa using hne)]

/-- A text by which something is found is a path. -/
theorem pathOf_of_find {d : Disk} {last : LastLink} {text : String} {s : Spot}
    (hf : d.find last text = .ok s) : pathOf text = .ok (Path.ofString text) := by
  rw [find] at hf
  cases hp : pathOf text with
  | error e => simp [hp, bind, Except.bind] at hf
  | ok p => rw [(pathOf_eq_ok hp).2.2]

theorem names_of_find {d : Disk} (h : d.Standing) {last : LastLink} {text : String} {s : Spot}
    (hf : d.find last text = .ok s) : ∃ q, s = .ofPlace q ∧ d.Names last text q := by
  rw [find] at hf
  cases hp : pathOf text with
  | error e => simp [hp, bind, Except.bind] at hf
  | ok p =>
    obtain ⟨hne, hnul, rfl⟩ := pathOf_eq_ok hp
    cases hq : d.findPath last (Path.ofString text) with
    | error e => simp [hp, hq, bind, Except.bind, Except.mapError] at hf
    | ok t =>
      simp only [hp, hq, bind, Except.bind, Except.mapError, Except.ok.injEq] at hf
      subst hf
      obtain ⟨q, rfl, hlead⟩ := (findPath_eq_ok_iff h).mp hq
      exact ⟨q, rfl, hne, hnul, hlead⟩

theorem find_of_pathLeads {d : Disk} (h : d.Standing) {last : LastLink} {text : String} {p : Path}
    {q : Place} (hpath : pathOf text = .ok p) (hq : d.PathLeads last p q) :
    d.find last text = .ok (.ofPlace q) := by
  simp only [find, hpath, bind, Except.bind, (findPath_eq_ok_iff h).mpr ⟨q, rfl, hq⟩,
    Except.mapError]

/-- A path that is not empty leads nowhere for lack of an entry on its way. -/
theorem findPath_of_find_noEntry {d : Disk} {last : LastLink} {text : String} (hne : text ≠ "")
    (hf : d.find last text = .error (.os .noEntry)) :
    d.findPath last (Path.ofString text) = .error .noEntry := by
  rw [find, pathOf] at hf
  split at hf
  · cases hf
  · split at hf
    · cases hf
    · rw [if_neg (by simpa using hne)] at hf
      cases hp : d.findPath last (Path.ofString text) with
      | ok s => simp [hp, bind, Except.bind, Except.mapError] at hf
      | error e =>
        simp only [hp, bind, Except.bind, Except.mapError, Except.error.injEq, IoError.os.injEq]
          at hf
        rw [hf]

/-! ## Making a directory -/

/-- The name of a path is free: its last step is a name, and the directory above has no
    such entry. -/
structure IsFree (d : Disk) (p : Path) (q : Place) (s : String) : Prop where
  above : d.Above p q
  last : p.steps.getLast? = some s
  name : IsName s
  free : d.root.kindAt (q ++ [s]) = none

/-- A directory is made exactly where a name is free. -/
theorem mkdirPath_eq_ok_iff {d d' : Disk} (h : d.Standing) {p : Path} :
    d.mkdirPath p = .ok d' ↔ ∃ q s, d.IsFree p q s ∧ d' = d.insert q s (.dir []) := by
  constructor
  · intro hmk
    rw [mkdirPath] at hmk
    split at hmk
    · cases hmk
    · -- The directory above is reached, and the last step is a name
      rename_i spot name hloc
      obtain ⟨hlast, q, rfl, habove⟩ := (locatePath_eq_ok_iff h).mp hloc
      obtain ⟨hlast, hdot, hup⟩ := lastStep_eq_name_iff.mp hlast.symm
      split at hmk
      · cases hmk
      · cases hmk
      · rename_i hent
        obtain ⟨hsize, hat⟩ := (lookup?_eq_ok_iff habove.1).mp hent
        cases hmk
        exact ⟨q, name, ⟨habove, hlast, ⟨hdot, hup, hsize⟩, Node.kindAt_eq_none_iff.mpr hat⟩, rfl⟩
    · cases hmk
  · rintro ⟨q, s, hfree, rfl⟩
    have hlast := lastStep_eq_name_iff.mpr ⟨hfree.last, hfree.name.ne_dot, hfree.name.ne_dotdot⟩
    have hloc := (locatePath_eq_ok_iff h).mpr ⟨hlast.symm, q, rfl, hfree.above⟩
    have hent := (lookup?_eq_ok_iff hfree.above.1).mpr
      ⟨hfree.name.size_le, Node.kindAt_eq_none_iff.mp hfree.free⟩
    simp only [mkdirPath, hloc, hent, ofPlace_place]

/-- One view shows all that another one shows, and beside that only directories. -/
structure Grows (d d' : Disk) : Prop where
  cwd_eq : d'.cwd = d.cwd
  kept : ∀ q k, d.root.kindAt q = some k → d'.root.kindAt q = some k
  added : ∀ q k, d'.root.kindAt q = some k → k = .dir ∨ d.root.kindAt q = some k

theorem Grows.refl (d : Disk) : Grows d d := ⟨rfl, fun _ _ h => h, fun _ _ h => .inr h⟩

theorem Grows.trans {d d' d'' : Disk} (h : Grows d d') (h' : Grows d' d'') : Grows d d'' where
  cwd_eq := h'.cwd_eq.trans h.cwd_eq
  kept q k hk := h'.kept q k (h.kept q k hk)
  added q k hk := (h'.added q k hk).elim .inl (h.added q k)

theorem Grows.standing {d d' : Disk} (h : Grows d d') (hd : d.Standing) : d'.Standing where
  present := by rw [h.cwd_eq]; exact hd.present
  isDir := by rw [h.cwd_eq]; exact h.kept _ _ hd.isDir

theorem IsFree.grows {d : Disk} {p : Path} {q : Place} {s : String} (h : d.IsFree p q s) :
    Grows d (d.insert q s (.dir [])) where
  cwd_eq := rfl
  kept r k hk := by
    rw [insert, Node.kindAt_insert h.above.1 h.free]
    split
    · rename_i hr
      rw [hr, h.free] at hk
      cases hk
    · exact hk
  added r k hk := by
    rw [insert, Node.kindAt_insert h.above.1 h.free] at hk
    split at hk
    · exact .inl (Option.some.inj hk).symm
    · exact .inr hk

theorem mkdirPath_grows {d d' : Disk} (h : d.Standing) {p : Path} (hmk : d.mkdirPath p = .ok d') :
    Grows d d' := by
  obtain ⟨q, s, hfree, rfl⟩ := (mkdirPath_eq_ok_iff h).mp hmk
  exact hfree.grows

theorem ensureDirectory_grows {d : Disk} (h : d.Standing) (p : Path) :
    Grows d (ensureDirectory p d).2 := by
  rw [ensureDirectory]
  split
  · rename_i hmk
    exact mkdirPath_grows h hmk
  · split <;> exact .refl d

/-- If making what is above only adds directories, so does making a directory after it. -/
theorem createAfter_grows {above : Disk → Except OsError Unit × Disk}
    (habove : ∀ d : Disk, d.Standing → Grows d (above d).2) {d : Disk} (h : d.Standing)
    (p : Path) : Grows d (createAfter above p d).2 := by
  have hfirst := ensureDirectory_grows h p
  rw [createAfter]
  split
  · rename_i d₁ he
    rw [he] at hfirst
    have hd₁ : d₁.Standing := hfirst.standing h
    have hup := habove d₁ hd₁
    -- The second try works on what the first one and `above` left
    split
    · rename_i d₂ ha
      rw [ha] at hup
      exact hfirst.trans (hup.trans (ensureDirectory_grows (hup.standing hd₁) p))
    · exact hfirst.trans hup
  · exact hfirst

theorem createComponents_grows (absolute : Bool) (steps : List String) {d : Disk}
    (h : d.Standing) : Grows d (createComponents absolute steps d).2 := by
  induction steps generalizing d with
  | nil => exact .refl d
  | cons name above ih => exact createAfter_grows (fun _ hd => ih hd) h _

/-- Making a directory with those above it only adds directories. -/
theorem createAll_grows (path : String) {d : Disk} (h : d.Standing) :
    Grows d (createAll path d).2 := by
  rw [createAll]
  split
  · exact .refl d
  · exact .refl d
  · exact createAfter_grows (fun _ hd => createComponents_grows _ _ hd) h _

/-! ### The working directory while directories are made -/

section WorkingDirectory

variable {d d' : Disk}

theorem mkdirPath_cwd {p : Path} (hmk : d.mkdirPath p = .ok d') : d'.cwd = d.cwd := by
  rw [mkdirPath] at hmk
  split at hmk
  · cases hmk
  · split at hmk <;> cases hmk
    rfl
  · cases hmk

theorem ensureDirectory_cwd (p : Path) (d : Disk) : (ensureDirectory p d).2.cwd = d.cwd := by
  rw [ensureDirectory]
  split
  · rename_i hmk
    exact mkdirPath_cwd hmk
  · split <;> rfl

theorem createAfter_cwd {above : Disk → Except OsError Unit × Disk}
    (habove : ∀ d : Disk, (above d).2.cwd = d.cwd) (p : Path) (d : Disk) :
    (createAfter above p d).2.cwd = d.cwd := by
  have hfirst := ensureDirectory_cwd p d
  rw [createAfter]
  split
  · rename_i d₁ he
    rw [he] at hfirst
    have hup := (habove d₁).trans hfirst
    split
    · rename_i d₂ ha
      rw [ha] at hup
      exact (ensureDirectory_cwd p d₂).trans hup
    · exact hup
  · exact hfirst

theorem createComponents_cwd (absolute : Bool) (steps : List String) (d : Disk) :
    (createComponents absolute steps d).2.cwd = d.cwd := by
  induction steps generalizing d with
  | nil => rfl
  | cons name above ih => exact createAfter_cwd ih _ d

/-- Making directories leaves the working directory what it is, even if it has been removed. -/
theorem createAll_cwd (path : String) (d : Disk) : (createAll path d).2.cwd = d.cwd := by
  rw [createAll]
  split
  · rfl
  · rfl
  · exact createAfter_cwd (createComponents_cwd _ _) _ d

end WorkingDirectory

/-! ## Removing -/

theorem remove_standing {d : Disk} (h : d.Standing) {q : Place} (hq : ¬ q <+: d.cwd.place) :
    (d.remove q).cwd = d.cwd ∧ (d.remove q).Standing := by
  have hne : q ≠ [] := fun hnil => hq (hnil ▸ List.nil_prefix)
  have hcwd : (d.remove q).cwd = d.cwd := by
    rw [remove, Spot.afterRemove, if_neg (by rwa [List.isPrefixOf_iff_prefix])]
  refine ⟨hcwd, by rw [hcwd]; exact h.present, ?_⟩
  rw [hcwd, remove, Node.kindAt_remove _ hne, if_neg hq]
  exact h.isDir

theorem clear_standing {d : Disk} (h : d.Standing) {q : Place} (hq : ¬ q <+: d.cwd.place)
    (hdir : d.root.kindAt q = some .dir) :
    (d.clear q).cwd = d.cwd ∧ (d.clear q).Standing := by
  have hcwd : (d.clear q).cwd = d.cwd := by
    rw [clear, Spot.afterClear, if_neg (by rwa [List.isPrefixOf_iff_prefix])]
  refine ⟨hcwd, by rw [hcwd]; exact h.present, ?_⟩
  rw [hcwd, clear, Node.kindAt_clear hdir, if_neg fun hand => hq hand.1]
  exact h.isDir

/-- An entry that is no directory does not enclose the working directory. -/
theorem not_le_cwd_of_link {d : Disk} (h : d.Standing) {q : Place} {target : String}
    (hq : d.root.kindAt q = some (.link target)) : ¬ q <+: d.cwd.place := by
  intro hle
  rw [Node.kindAt_dir_above hle h.isDir] at hq
  cases hq

/-- The working directory can be emptied itself. -/
theorem clear_cwd_standing {d : Disk} (h : d.Standing) :
    (d.clear d.cwd.place).cwd = d.cwd ∧ (d.clear d.cwd.place).Standing := by
  have hcwd : (d.clear d.cwd.place).cwd = d.cwd := by simp [clear, Spot.afterClear]
  refine ⟨hcwd, by rw [hcwd]; exact h.present, ?_⟩
  rw [hcwd, clear, Node.kindAt_clear h.isDir, if_neg fun hand => hand.2 rfl]
  exact h.isDir

theorem removed_le_remove (d : Disk) (q : Place) : d.cwd.removed ≤ (d.remove q).cwd.removed := by
  rw [remove, Spot.afterRemove]
  split
  · exact Nat.le_add_right _ _
  · exact Nat.le_refl _

/-- What is removed does not enclose the working directory, if that is still there. -/
theorem not_le_cwd_of_remove_present {d : Disk} {q : Place} (hne : q ≠ [])
    (hpresent : (d.remove q).cwd.removed = 0) : ¬ q <+: d.cwd.place := by
  intro hle
  rw [remove, Spot.afterRemove, if_pos (List.isPrefixOf_iff_prefix.mpr hle)] at hpresent
  have hlen := hle.length_le
  have hpos := List.length_pos_iff.mpr hne
  simp only [List.length_dropLast] at hpresent
  omega

theorem remove_standing_of_present {d : Disk} (h : d.Standing) {q : Place}
    (hpresent : (d.remove q).cwd.removed = 0) : (d.remove q).Standing := by
  by_cases hne : q = []
  · -- The root stays
    subst hne
    have hcwd : (d.remove []).cwd.place = [] := by simp [remove, Spot.afterRemove]
    refine ⟨hpresent, ?_⟩
    rw [hcwd]
    exact Node.kindAt_dir_above List.nil_prefix h.isDir
  · exact (remove_standing h (not_le_cwd_of_remove_present hne hpresent)).2

/-- What is emptied is no directory above the working directory, if that is still there. -/
theorem clear_standing_of_present {d : Disk} (h : d.Standing) {q : Place}
    (hdir : d.root.kindAt q = some .dir) (hpresent : (d.clear q).cwd.removed = 0) :
    (d.clear q).cwd = d.cwd ∧ (d.clear q).Standing ∧ (q <+: d.cwd.place → q = d.cwd.place) := by
  by_cases hle : q <+: d.cwd.place
  · have hself : q = d.cwd.place := by
      rw [clear, Spot.afterClear, if_pos (List.isPrefixOf_iff_prefix.mpr hle)] at hpresent
      refine hle.eq_of_length_le ?_
      dsimp only at hpresent
      omega
    subst hself
    obtain ⟨hcwd, hclear⟩ := clear_cwd_standing h
    exact ⟨hcwd, hclear, fun _ => rfl⟩
  · obtain ⟨hcwd, hclear⟩ := clear_standing h hle hdir
    exact ⟨hcwd, hclear, fun hyes => absurd hyes hle⟩

/-- What the removal of an empty directory by a name comes to. -/
theorem rmdirPlace_of_name {d : Disk} {p : Path} {r : Place} (h : d.Standing)
    (hr : d.Above p r) {s : String} (hlast : p.steps.getLast? = some s) (hs : IsName s) :
    d.rmdirPlace p = match d.root.at? (r ++ [s]) with
      | none => .error .noEntry
      | some (.dir []) => .ok (r ++ [s])
      | some (.dir _) => .error .notEmpty
      | some _ => .error .notDirectory := by
  have hstep := lastStep_eq_name_iff.mpr ⟨hlast, hs.ne_dot, hs.ne_dotdot⟩
  have hloc := (locatePath_eq_ok_iff h).mpr ⟨hstep.symm, r, rfl, hr⟩
  have hent := (lookup?_eq_ok_iff hr.1).mpr ⟨hs.size_le, rfl⟩
  simp only [rmdirPlace, hloc, hent, ofPlace_place]
  rcases d.root.at? (r ++ [s]) with _ | x
  · rfl
  · cases x with
    | file content mode => rfl
    | link target => rfl
    | dir es => cases es <;> rfl

theorem rmdirPlace_eq_ok {d : Disk} (h : d.Standing) {p : Path} {r : Place}
    (hrm : d.rmdirPlace p = .ok r) :
    ∃ q s, d.Above p q ∧ p.steps.getLast? = some s ∧ IsName s ∧
      d.root.at? (q ++ [s]) = some (.dir []) ∧ r = q ++ [s] := by
  rw [rmdirPlace] at hrm
  split at hrm
  · cases hrm
  · cases hrm
  · cases hrm
  · cases hrm
  · -- Only a last step that is a name gets this far
    rename_i spot name hloc
    obtain ⟨hlast, q, rfl, habove⟩ := (locatePath_eq_ok_iff h).mp hloc
    obtain ⟨hlast, hdot, hup⟩ := lastStep_eq_name_iff.mp hlast.symm
    split at hrm
    · cases hrm
    · cases hrm
    · rename_i hent
      obtain ⟨hsize, hat⟩ := (lookup?_eq_ok_iff habove.1).mp hent
      cases hrm
      exact ⟨q, name, habove, hlast, ⟨hdot, hup, hsize⟩, hat, rfl⟩
    · cases hrm
    · cases hrm

theorem rmdir_eq_ok {d d' : Disk} {path : String} (h : d.rmdir path = .ok d') :
    ∃ r, d.rmdirPlace (Path.ofString path) = .ok r ∧ d' = d.remove r := by
  rw [rmdir] at h
  cases hp : pathOf path with
  | error e => simp [hp, bind, Except.bind] at h
  | ok p =>
    obtain ⟨_, _, rfl⟩ := pathOf_eq_ok hp
    cases hr : d.rmdirPlace (Path.ofString path) with
    | error e => simp [hp, hr, rmdirPath, bind, Except.bind, Except.mapError, Except.map] at h
    | ok r =>
      simp only [hp, hr, rmdirPath, bind, Except.bind, Except.mapError, Except.map,
        Except.ok.injEq] at h
      exact ⟨r, rfl, h.symm⟩

/-- What removing a path with all below it can come to. -/
inductive Removal (d : Disk) (path : String) : Except IoError Unit × Disk → Prop
  /-- Nothing is removed: the path leads nowhere, or to a file. -/
  | refused (e : IoError) :
      d.find .keep path = .error e ∨ e = .os .notDirectory → Removal d path (.error e, d)
  /-- A link is removed. -/
  | unlinked {q : Place} {target : String} :
      d.Names .keep path q → d.root.kindAt q = some (.link target) →
      Removal d path (.ok (), d.remove q)
  /-- A directory is emptied, and stays. -/
  | emptied {q : Place} (r : Except IoError Unit) :
      d.Names .keep path q → d.root.kindAt q = some .dir → Removal d path (r, d.clear q)
  /-- A directory is removed. -/
  | removed {q : Place} :
      d.Names .keep path q → d.root.kindAt q = some .dir →
      Removal d path (.ok (), (d.clear q).remove q)

/-- The emptied directory is the one that is removed: what a path leads to among the
    entries that are left, it led to before. -/
private theorem rmdirPlace_clear {d : Disk} {q r : Place} {p : Path}
    (hd : (d.clear q).Standing) (hcwd : (d.clear q).cwd = d.cwd) (hq : d.PathLeads .keep p q)
    (hdir : d.root.kindAt q = some .dir) (hrm : (d.clear q).rmdirPlace p = .ok r) : r = q := by
  obtain ⟨above, s, habove, hlast, hs, hat, rfl⟩ := rmdirPlace_eq_ok hd hrm
  have hk : (d.clear q).root.kindAt (above ++ [s]) = some .dir :=
    Node.kindAt_eq_dir_iff.mpr ⟨[], hat⟩
  obtain ⟨n, hn, hlead⟩ := habove.pathLeads hlast hs hk (by simp) (fun _ => rfl) .keep
  rw [hcwd] at hlead
  -- The emptied tree shows less than the one before
  have hless : ∀ p k, (d.clear q).root.kindAt p = some k → d.root.kindAt p = some k := by
    intro p k hp
    rw [clear, Node.kindAt_clear hdir] at hp
    split at hp
    · cases hp
    · exact hp
  exact PathLeads.unique ⟨n, hn, hlead.mono hless⟩ hq

/-- Removing comes to one of the four outcomes, if the working directory is still there once the
    directory that the path names is empty. -/
theorem removeAll_cases {d : Disk} (h : d.Standing) {path : String}
    (hclear : ∀ q, d.find .keep path = .ok (.ofPlace q) → d.root.kindAt q = some .dir →
      (d.clear q).cwd.removed = 0) : Removal d path (removeAll path d) := by
  rw [removeAll]
  split
  · rename_i e hfind
    exact .refused e (.inl hfind)
  · rename_i spot hfind
    obtain ⟨q, rfl, hq⟩ := names_of_find h hfind
    rw [node?_ofPlace]
    split
    · rename_i target hat
      exact .unlinked hq (Node.kindAt_eq_some_iff.mpr ⟨_, hat, rfl⟩)
    · rename_i es hat
      have hdir : d.root.kindAt q = some .dir := Node.kindAt_eq_dir_iff.mpr ⟨es, hat⟩
      obtain ⟨hcwd, hd, -⟩ := clear_standing_of_present h hdir (hclear q hfind hdir)
      dsimp only [ofPlace_place]
      split
      · rename_i d' hrm
        -- The removal by the same path takes away the directory just emptied
        obtain ⟨r, hr, rfl⟩ := rmdir_eq_ok hrm
        rw [rmdirPlace_clear hd hcwd hq.2.2 hdir hr]
        exact .removed hq hdir
      · exact .emptied _ hq hdir
      · exact .emptied _ hq hdir
    · exact .refused _ (.inr rfl)

/-- It can only meet directories away from the working directory. -/
theorem removeAll_cases_of_safe {d : Disk} (h : d.Standing) {path : String}
    (hsafe : ∀ q, d.Names .keep path q → d.root.kindAt q = some .dir → ¬ q <+: d.cwd.place) :
    Removal d path (removeAll path d) := by
  refine removeAll_cases h fun q hfind hdir => ?_
  obtain ⟨r, hr, hq⟩ := names_of_find h hfind
  obtain rfl : q = r := congrArg Spot.place hr
  rw [(clear_standing h (hsafe q hq hdir) hdir).1]
  exact h.present

/-- Once a directory is emptied, nothing brings the working directory back. -/
theorem removed_clear_le_removeAll {d : Disk} {path : String} {q : Place}
    (hfind : d.find .keep path = .ok (.ofPlace q)) (hdir : d.root.kindAt q = some .dir) :
    (d.clear q).cwd.removed ≤ (removeAll path d).2.cwd.removed := by
  obtain ⟨es, hat⟩ := Node.kindAt_eq_dir_iff.mp hdir
  rw [removeAll, hfind]
  simp only [node?_ofPlace, hat, ofPlace_place]
  split
  · rename_i d' hrm
    obtain ⟨r, -, rfl⟩ := rmdir_eq_ok hrm
    exact removed_le_remove _ r
  · exact Nat.le_refl _
  · exact Nat.le_refl _

/-- It leaves the working directory, for whatever reason. -/
theorem removeAll_cases_of_present {d : Disk} (h : d.Standing) {path : String}
    (hpresent : (removeAll path d).2.cwd.removed = 0) : Removal d path (removeAll path d) :=
  removeAll_cases h fun _ hfind hdir =>
    Nat.le_zero.mp (hpresent ▸ removed_clear_le_removeAll hfind hdir)

theorem Removal.standing {d : Disk} (h : d.Standing) {path : String}
    {o : Except IoError Unit × Disk} (ho : Removal d path o) (hpresent : o.2.cwd.removed = 0) :
    o.2.Standing := by
  cases ho with
  | refused => exact h
  | @unlinked q target hq hlink =>
    exact (remove_standing h (not_le_cwd_of_link h hlink)).2
  | @emptied q r hq hdir => exact (clear_standing_of_present h hdir hpresent).2.1
  | @removed q hq hdir =>
    have hkept := removed_le_remove (d.clear q) q
    obtain ⟨-, hclear, -⟩ := clear_standing_of_present h hdir (Nat.le_zero.mp (hpresent ▸ hkept))
    exact remove_standing_of_present hclear hpresent

end Keysmith.Disk
