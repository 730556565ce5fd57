import Keysmith.Proofs.DirectoryRenewal

/-!
# When a reset leaves an empty directory

A reset that succeeds should leave an empty directory at its path.  But making a
directory is content with one that is there, and a name that is taken counts as no
failure.  So it matters what is there when the directory itself is to be made, after
the removal and after the missing directories above were made (`beforeMaking`):

* `reset_empty_iff`  an empty directory is left exactly if its name was free by then,
  or an empty directory stood there; by a plain path that meets no link it always is
* `reset_keeps_stale`  by a missing directory and `..`, the path comes back to a
  directory that was never emptied
-/

namespace Keysmith

namespace Disk

/-! ## Making a directory after those above it -/

/-- If the directories above cannot all be made, then in the end one of them is missing.
    The components are given the last one first. -/
theorem createComponents_error {d d' : Disk} (h : d.Standing) {absolute : Bool}
    {comps : List String} {e : OsError}
    (hmk : createComponents absolute comps d = (.error e, d')) :
    ∃ l, l <:+ comps ∧ d'.leadsToDirectory ⟨absolute, l.reverse, false⟩ = false := by
  -- On the components, each of which is tried before and after those above it
  induction comps generalizing d d' e with
  | nil => cases hmk
  | cons name above ih =>
    rw [createComponents, createAfter] at hmk
    have hfirst := ensureDirectory_cases h ⟨absolute, (name :: above).reverse, false⟩
    split at hmk
    · rename_i d₁ he
      rw [he] at hfirst
      cases hfirst
      rename_i hdir
      have hgrow := createComponents_grows absolute above h
      split at hmk
      · rename_i d₂ ha
        rw [ha] at hgrow
        have hsecond := ensureDirectory_cases (hgrow.standing h)
          ⟨absolute, (name :: above).reverse, false⟩
        rw [hmk] at hsecond
        cases hsecond
        rename_i hdir₂
        exact ⟨_, List.suffix_rfl, hdir₂⟩
      · -- It was one of those above that could not be made
        obtain ⟨l, hl, hdir'⟩ := ih h hmk
        exact ⟨l, hl.trans (List.suffix_cons name above), hdir'⟩
    · rw [hmk] at hfirst
      cases hfirst
      rename_i hdir
      exact ⟨_, List.suffix_rfl, hdir⟩

/-- Where a name is free, the directories above are there. -/
private theorem IsFree.leadsToDirectory {d : Disk} (h : d.Standing) {p : Path} {q : Place}
    {s : String} (hfree : d.IsFree p q s) {l : List String}
    (hl : l <:+ p.components.reverse.tail) :
    d.leadsToDirectory ⟨p.absolute, l.reverse, false⟩ = true := by
  obtain ⟨hdir, n, hn, hlead⟩ := hfree.above
  have hcomps : p.components.reverse.tail =
      ({ p with steps := p.steps.dropLast } : Path).components.reverse := by
    rw [components_concat (steps_eq_of_getLast? hfree.last) hfree.name.ne_dot]
    simp
  obtain ⟨b, hb⟩ : l.reverse <+: ({ p with steps := p.steps.dropLast } : Path).components := by
    rw [← List.reverse_suffix, List.reverse_reverse, ← hcomps]
    exact hl
  have hlead := hlead.components (p := { p with steps := p.steps.dropLast })
  rw [← hb] at hlead
  rw [leadsToDirectory_iff h]
  by_cases hnil : b = []
  · rw [hnil, List.append_nil] at hlead
    exact ⟨q, ⟨n, hn, hlead⟩, hdir⟩
  · -- A directory is between the first components and the others
    obtain ⟨n₁, n₂, mid, rfl, hfirst, hrest⟩ := hlead.split hnil
    exact ⟨mid, ⟨n₁, (Nat.le_add_right n₁ n₂).trans hn, hfirst⟩, hrest.dir_of_ne_nil hnil⟩

/-- The disk on which the directory at a path is made: with the missing directories
    above it, as far as they could be made. -/
def withAbove (p : Path) (d : Disk) : Disk :=
  match ensureDirectory p d with
  | (.error .noEntry, d) => (createComponents p.absolute p.components.reverse.tail d).2
  | _ => d

theorem withAbove_grows {d : Disk} (h : d.Standing) (p : Path) : Grows d (d.withAbove p) := by
  rw [withAbove]
  split
  · rename_i d' he
    have hgrow := ensureDirectory_grows h p
    rw [he] at hgrow
    exact hgrow.trans (createComponents_grows _ _ (hgrow.standing h))
  · exact .refl d

/-- Making a directory after those above it: it is made because its name is free by then,
    or nothing more is changed. -/
theorem createAfter_cases {d : Disk} (h : d.Standing) (p : Path) :
    (∃ q s, (d.withAbove p).IsFree p q s ∧
      createAfter (createComponents p.absolute p.components.reverse.tail) p d =
        (.ok (), (d.withAbove p).insert q s (.dir []))) ∨
    (∀ q s, ¬ (d.withAbove p).IsFree p q s) ∧
      (createAfter (createComponents p.absolute p.components.reverse.tail) p d).2 =
        d.withAbove p := by
  have hfirst := ensureDirectory_cases h p
  rw [createAfter, withAbove]
  generalize ensureDirectory p d = o at hfirst
  cases hfirst with
  | made hfree => exact .inl ⟨_, _, hfree, rfl⟩
  | present hfree _ => exact .inr ⟨hfree, rfl⟩
  | failed e hfree _ =>
    by_cases he : e = .noEntry
    · subst he
      have hgrow := createComponents_grows p.absolute p.components.reverse.tail h
      dsimp only
      rcases hmk : createComponents p.absolute p.components.reverse.tail d with ⟨ra, d₂⟩
      rw [hmk] at hgrow
      have hd₂ : d₂.Standing := hgrow.standing h
      cases ra with
      | ok _ =>
        -- The directories above are there now
        have hsecond := ensureDirectory_cases hd₂ p
        dsimp only
        generalize ensureDirectory p d₂ = o₂ at hsecond
        cases hsecond with
        | made hfree₂ => exact .inl ⟨_, _, hfree₂, rfl⟩
        | present hfree₂ _ => exact .inr ⟨hfree₂, rfl⟩
        | failed _ hfree₂ _ => exact .inr ⟨hfree₂, rfl⟩
      | error ea =>
        -- A directory above is missing in the end, so no name is free below it
        obtain ⟨l, hl, hmissing⟩ := createComponents_error h hmk
        refine .inr ⟨fun q s hfree₂ => ?_, rfl⟩
        rw [hfree₂.leadsToDirectory hd₂ hl] at hmissing
        cases hmissing
    · -- Every other failure ends the work at once
      cases e <;> first | exact absurd rfl he | exact .inr ⟨hfree, rfl⟩

/-- Making all directories of a path that is not empty makes them component by component,
    if it does not fail for the path's text. -/
theorem createAll_of_ok {d : Disk} {dir : String} (hne : dir ≠ "")
    (hmk : (createAll dir d).1 = .ok () ∨ (createAll dir d).1 = .error (.os .alreadyExists)) :
    pathOf dir = .ok (Path.ofString dir) ∧ (createAll dir d).2 =
      (createAfter (createComponents (Path.ofString dir).absolute
        (Path.ofString dir).components.reverse.tail) (Path.ofString dir) d).2 := by
  rw [createAll] at hmk ⊢
  cases hp : pathOf dir with
  | ok p =>
    obtain ⟨-, -, rfl⟩ := pathOf_eq_ok hp
    exact ⟨rfl, rfl⟩
  | error e =>
    rw [hp] at hmk
    rw [pathOf] at hp
    split at hp
    · cases hp
      simp at hmk
    · split at hp
      · cases hp
        simp at hmk
      · split at hp
        · rename_i hempty
          exact absurd (by simpa using hempty) hne
        · cases hp

/-- A path leads to an empty directory away from the working directory and those that
    enclose it. -/
def StandsEmpty (d : Disk) (dir : String) : Prop :=
  ∃ q, d.Names .follow dir q ∧ d.root.at? q = some (.dir []) ∧ ¬ q <+: d.cwd.place

/-- A directory that is made where its name was free is empty, and new. -/
theorem IsFree.standsEmpty {d : Disk} (h : d.Standing) {dir : String} (hne : dir ≠ "")
    (hnul : '\x00' ∉ dir.toList) {q : Place} {s : String}
    (hfree : d.IsFree (Path.ofString dir) q s) :
    (d.insert q s (.dir [])).StandsEmpty dir := by
  obtain ⟨hlead, hat⟩ := hfree.leads_made
  refine ⟨q ++ [s], ⟨hne, hnul, hlead⟩, hat, fun hle => ?_⟩
  rw [hfree.grows.cwd_eq] at hle
  cases hfree.free.symm.trans (Node.kindAt_dir_above hle h.isDir)

end Disk

namespace OutputDir

open Disk

/-- The disk on which a reset makes the directory itself: what the path named is
    removed, and the missing directories above it are made. -/
def beforeMaking (dir : String) (d : Disk) : Disk :=
  (removeAll dir d).2.withAbove (Path.ofString dir)

/-! ## Plain paths without links -/

/-- A path is made of names and of steps that stay, it ends in a name, and no link is on
    its way; the place that it spells may be a link, if no slash comes after it. -/
structure IsPlain (d : Disk) (p : Path) : Prop where
  steps : Plain p.steps
  last : ∃ s, p.steps.getLast? = some s ∧ IsName s
  noLink : ∀ q target, q <+: d.spelled p → d.root.kindAt q = some (.link target) →
    q = d.spelled p ∧ p.slash = false

namespace IsPlain

variable {d : Disk} {p : Path}

theorem init (h : IsPlain d p) : Plain p.steps.dropLast :=
  fun s hs => h.steps s (List.mem_of_mem_dropLast hs)

/-- The path names the place that it spells, if it names anything. -/
theorem place_eq (h : IsPlain d p) {q : Place} (hq : d.PathLeads .keep p q) :
    q = d.spelled p := by
  obtain ⟨s, hlast, hs⟩ := h.last
  obtain ⟨n, _, hq⟩ := hq
  rw [walk_eq, steps_eq_of_getLast? hlast, List.append_assoc] at hq
  obtain ⟨n₁, n₂, mid, -, hinit, hend⟩ := hq.split (List.cons_ne_nil s _)
  have habove : d.spelledAbove p <+: d.spelled p := by
    rw [spelled_eq hlast hs]
    exact List.prefix_append _ _
  have hne : d.spelledAbove p ≠ d.spelled p := by
    rw [spelled_eq hlast hs]
    simp
  have hmid : mid = d.spelledAbove p := by
    refine h.init.place_eq hinit fun r target hr hlink => ?_
    obtain ⟨rfl, -⟩ := h.noLink r target (hr.trans habove) hlink
    exact hne (habove.eq_of_length_le hr.length_le)
  rw [spelled_eq hlast hs, ← hmid]
  generalize hslash : (if p.slash then ["."] else [] : List String) = rest at hend
  cases hend with
  | stay => exact absurd rfl hs.ne_dot
  | up => exact absurd rfl hs.ne_dotdot
  | enter _ _ _ hrest =>
    -- A slash at the end stays
    split at hslash <;> subst hslash
    · obtain ⟨-, hstay⟩ := hrest.of_stay
      cases hstay
      rfl
    · cases hrest
      rfl
  | kept => rfl
  | link _ hk hkeep =>
    rw [hmid, ← spelled_eq hlast hs] at hk
    obtain ⟨-, hno⟩ := h.noLink _ _ List.prefix_rfl hk
    rw [hno] at hslash
    cases hkeep hslash.symm

/-- A link at the place that the path spells is what it names. -/
theorem pathLeads_of_link (h : IsPlain d p) {target : String}
    (hlink : d.root.kindAt (d.spelled p) = some (.link target)) :
    d.PathLeads .keep p (d.spelled p) := by
  obtain ⟨s, hlast, hs⟩ := h.last
  obtain ⟨-, hslash⟩ := h.noLink _ _ List.prefix_rfl hlink
  rw [spelled_eq hlast hs] at hlink ⊢
  have habove : d.root.kindAt (d.spelledAbove p) = some .dir := Node.kindAt_dir_of_entry hlink
  have hlead : Leads d.root.kindAt .keep 0 _ (p.steps.dropLast ++ [s]) _ :=
    (h.init.leads habove).append (.kept hs hlink rfl) (by simp)
  refine ⟨0, Nat.zero_le _, ?_⟩
  rw [walk_eq, hslash, steps_eq_of_getLast? hlast]
  simpa [spelledAbove] using hlead

/-- Where the path leads nowhere for lack of an entry, nothing but directories stands in
    its way. -/
theorem openTo (hd : d.Standing) (h : IsPlain d p) (hfind : d.findPath .keep p = .error .noEntry) :
    OpenTo d (d.spelled p) := by
  have hmissing := findPath_eq_noEntry_iff.mp hfind
  rw [hd.start_eq, follow_missing_iff (hd.start_isDir p) h.steps.walk, names_walk] at hmissing
  · exact hmissing
  · intro q target hq hlink
    rw [names_walk] at hq
    obtain ⟨rfl, -⟩ := h.noLink q target hq hlink
    rw [(findPath_eq_ok_iff hd).mpr ⟨_, rfl, h.pathLeads_of_link hlink⟩] at hfind
    cases hfind

end IsPlain

/-- Where nothing but directories stands in the way, the directories above are made and
    the name is free. -/
theorem isFree_withAbove {d : Disk} {p : Path} (hd : d.Standing) (hsteps : Plain p.steps)
    {s : String} (hlast : p.steps.getLast? = some s) (hs : IsName s)
    (hopen : OpenTo d (d.spelled p)) : ∃ q, (d.withAbove p).IsFree p q s := by
  have hle : d.spelledAbove p <+: d.spelled p := by
    rw [spelled_eq hlast hs]
    exact List.prefix_append _ _
  rcases hopen.way _ hle with hnone | hdir
  · -- The directories above are made first
    have hfirst := ensureDirectory_eq_noEntry hd hsteps
      ⟨hnone, fun q hq => hopen.way q (hq.trans hle)⟩
    have hcomps : p.components.reverse.tail.reverse =
        ({ p with steps := p.steps.dropLast } : Path).components := by
      rw [components_concat (steps_eq_of_getLast? hlast) hs.ne_dot]
      simp
    have hnames : names p.components.reverse.tail.reverse = names p.steps.dropLast := by
      rw [hcomps, names_components]
    have hcompsPlain : Plain p.components.reverse.tail :=
      fun s hs => hsteps.components s (List.mem_reverse.mp (List.mem_of_mem_tail hs))
    obtain ⟨d', hmk, hmade⟩ := createComponents_madeTo hd p.absolute hcompsPlain rfl
      (by rw [hnames]; exact fun q hq => hopen.way q (hq.trans hle))
    rw [hnames] at hmade
    change MadeTo (d.spelledAbove p) d d' at hmade
    obtain ⟨hspelled, hspelledAbove⟩ := spelled_congr hmade.cwd_eq p
    have hwith : d.withAbove p = d' := by
      rw [withAbove, hfirst]
      dsimp only
      rw [hmk]
    rw [hwith]
    refine ⟨_, isFree_spelled hsteps hlast hs ?_ ?_⟩
    · rw [hspelledAbove, hmade.kindAt_eq, if_pos List.prefix_rfl]
    · rw [hspelled, hmade.kindAt_eq, if_neg]
      · exact hopen.missing
      · intro hge
        have hlen := hge.length_le
        rw [spelled_eq hlast hs, List.length_append, List.length_singleton] at hlen
        omega
  · have hfree := isFree_spelled hsteps hlast hs hdir hopen.missing
    have hwith : d.withAbove p = d := by rw [withAbove, hfree.ensureDirectory hd]
    exact ⟨_, by rwa [hwith]⟩

theorem openTo_remove {d : Disk} {x : Place} (hne : x ≠ []) (hx : d.root.kindAt x ≠ none) :
    OpenTo (d.remove x) x where
  missing := by rw [remove, Node.kindAt_remove _ hne, if_pos List.prefix_rfl]
  way q hq := by
    rw [remove, Node.kindAt_remove _ hne]
    split
    · exact .inl rfl
    · rename_i hxq
      exact .inr (Node.kindAt_above hq (fun heq => hxq (heq ▸ List.prefix_rfl)) hx)

/-- By a plain path, the working directory is removed if it is emptied. -/
theorem IsPlain.removeAll_cwd {d : Disk} {dir : String} (h : d.Standing)
    (hplain : IsPlain d (Path.ofString dir))
    (hfind : d.find .keep dir = .ok (.ofPlace d.cwd.place)) :
    (removeAll dir d).2 = (d.clear d.cwd.place).remove d.cwd.place := by
  obtain ⟨hcwd, hclear⟩ := clear_cwd_standing h
  obtain ⟨es, hat⟩ := Node.kindAt_eq_dir_iff.mp h.isDir
  obtain ⟨s, hlast, hs⟩ := hplain.last
  obtain ⟨q, hq, hlead⟩ := names_of_find h hfind
  -- The directory above the last step is above the working directory, too
  have hplace : d.cwd.place = d.spelledAbove (Path.ofString dir) ++ [s] := by
    rw [← spelled_eq hlast hs, ← hplain.place_eq hlead.2.2]
    exact congrArg Spot.place hq
  have habove : (d.clear d.cwd.place).Above (Path.ofString dir)
      (d.spelledAbove (Path.ofString dir)) := by
    have hdir : (d.clear d.cwd.place).root.kindAt (d.spelledAbove (Path.ofString dir)) =
        some .dir := by
      refine Node.kindAt_dir_above ?_ hclear.isDir
      rw [hcwd, hplace]
      exact List.prefix_append _ _
    refine ⟨hdir, 0, Nat.zero_le _, ?_⟩
    rw [hcwd]
    exact hplain.init.leads hdir
  have hself : (d.clear d.cwd.place).root.at? d.cwd.place = some (.dir []) :=
    Node.at?_clear_self h.isDir
  have hrm := rmdirPlace_of_name hclear habove hlast hs
  rw [← hplace, hself] at hrm
  have hrmdir : (d.clear d.cwd.place).rmdir dir =
      .ok ((d.clear d.cwd.place).remove d.cwd.place) := by
    simp only [rmdir, pathOf_of_find hfind, bind, Except.bind, rmdirPath, hrm]
    rfl
  rw [removeAll, hfind]
  simp only [node?_ofPlace, hat, ofPlace_place, hrmdir]

/-- By a plain path, no directory is removed that encloses the working directory, if that is
    still there afterwards. -/
theorem IsPlain.not_le_cwd {d : Disk} {dir : String} (h : d.Standing)
    (hplain : IsPlain d (Path.ofString dir)) (hpresent : (removeAll dir d).2.cwd.removed = 0)
    {q : Place} (hfind : d.find .keep dir = .ok (.ofPlace q))
    (hdir : d.root.kindAt q = some .dir) : ¬ q <+: d.cwd.place := by
  intro hle
  have hkept := Nat.le_zero.mp (hpresent ▸ removed_clear_le_removeAll hfind hdir)
  obtain ⟨hcwd, -, hself⟩ := clear_standing_of_present h hdir hkept
  obtain rfl := hself hle
  rw [hplain.removeAll_cwd h hfind] at hpresent
  refine not_le_cwd_of_remove_present ?_ hpresent (by rw [hcwd])
  obtain ⟨s, hlast, hs⟩ := hplain.last
  obtain ⟨q, hq, hlead⟩ := names_of_find h hfind
  have hplace : d.cwd.place = d.spelled (Path.ofString dir) :=
    (congrArg Spot.place hq).trans (hplain.place_eq hlead.2.2)
  rw [hplace, spelled_eq hlast hs]
  exact List.concat_ne_nil _ _

/-- After the removal by a plain path, the name of the directory can be made free, or an
    empty directory is left. -/
theorem beforeMaking_of_plain {d : Disk} {dir : String} (h : d.Standing)
    (hplain : IsPlain d (Path.ofString dir)) (hpath : pathOf dir = .ok (Path.ofString dir))
    (hpresent : (removeAll dir d).2.cwd.removed = 0)
    (hgone : (removeAll dir d).1 = .ok () ∨ (removeAll dir d).1 = .error (.os .noEntry)) :
    (∃ q s, (beforeMaking dir d).IsFree (Path.ofString dir) q s) ∨
      (beforeMaking dir d).StandsEmpty dir := by
  obtain ⟨s, hlast, hs⟩ := hplain.last
  obtain ⟨hne, -, -⟩ := pathOf_eq_ok hpath
  have hcases := removeAll_cases_of_present h hpresent
  have hsafe {q : Place} (hq : d.Names .keep dir q) : d.root.kindAt q = some .dir →
      ¬ q <+: d.cwd.place :=
    hplain.not_le_cwd h hpresent (find_of_pathLeads h hpath hq.2.2)
  rw [beforeMaking]
  generalize removeAll dir d = o at hcases hgone
  -- The disk that is left, if the way on it is open to the place
  have hfree (d₁ : Disk) (hd₁ : d₁.Standing) (hcwd : d₁.cwd = d.cwd)
      (hopen : OpenTo d₁ (d.spelled (Path.ofString dir))) :
      ∃ q s, (d₁.withAbove (Path.ofString dir)).IsFree (Path.ofString dir) q s := by
    rw [← (spelled_congr hcwd _).1] at hopen
    obtain ⟨q, hq⟩ := isFree_withAbove hd₁ hplain.steps hlast hs hopen
    exact ⟨q, s, hq⟩
  cases hcases with
  | refused e he =>
    refine .inl (hfree d h rfl (hplain.openTo h ?_))
    have hnoEntry : e = .os .noEntry := Except.error.inj (hgone.resolve_left (by simp))
    subst hnoEntry
    exact findPath_of_find_noEntry hne (he.resolve_right (by simp))
  | @unlinked q target hq hlink =>
    -- The link that was removed had the wanted place
    have hx := not_le_cwd_of_link h hlink
    obtain rfl := hplain.place_eq hq.2.2
    obtain ⟨hcwd, hd₁⟩ := remove_standing h hx
    refine .inl (hfree _ hd₁ hcwd (openTo_remove ?_ ?_))
    · exact fun hnil => hx (hnil ▸ List.nil_prefix)
    · simp [hlink]
  | @removed q hq hdir =>
    have hx := hsafe hq hdir
    obtain rfl := hplain.place_eq hq.2.2
    obtain ⟨hcwd, hd₁⟩ := clear_standing h hx hdir
    obtain ⟨hcwd', hd₂⟩ := remove_standing hd₁ (by rwa [hcwd])
    refine .inl (hfree _ hd₂ (hcwd'.trans hcwd) (openTo_remove ?_ ?_))
    · exact fun hnil => hx (hnil ▸ List.nil_prefix)
    · rw [clear, Node.kindAt_clear hdir, if_neg (by simp), hdir]
      simp
  | @emptied q r hq hdir =>
    have hx := hsafe hq hdir
    obtain rfl := hplain.place_eq hq.2.2
    obtain ⟨hcwd, hd₁⟩ := clear_standing h hx hdir
    -- The directory is still there, and empty
    have hat : (d.clear (d.spelled (Path.ofString dir))).root.at?
        (d.spelled (Path.ofString dir)) = some (.dir []) := Node.at?_clear_self hdir
    have hk := Node.kindAt_eq_dir_iff.mpr ⟨[], hat⟩
    dsimp only
    generalize d.clear (d.spelled (Path.ofString dir)) = d₁ at *
    rw [← (spelled_congr hcwd _).1] at hat hk hx
    rw [← hcwd] at hx
    rw [withAbove, ensureDirectory_eq_self hd₁ hplain.steps hk]
    exact .inr ⟨_, ⟨hne, hq.2.1, pathLeads_spelled hplain.steps hk .follow⟩, hat, hx⟩

/-- After a reset that succeeds and leaves the working directory, an empty directory away from
    that is left exactly if, when the directory itself was to be made, its name was free or such
    a directory stood there already; and if the name was not free, what stood there is
    left as it was.  By a plain path without links, an empty directory is always left. -/
theorem reset_empty_iff (d : Disk) (dir : String) (h : d.Standing)
    (hok : (reset dir d).1 = .ok ()) (hstands : (reset dir d).2.Standing) :
    ((reset dir d).2.StandsEmpty dir ↔
      (∃ q s, (beforeMaking dir d).IsFree (Path.ofString dir) q s) ∨
        (beforeMaking dir d).StandsEmpty dir) ∧
    ((∀ q s, ¬ (beforeMaking dir d).IsFree (Path.ofString dir) q s) →
      (reset dir d).2 = beforeMaking dir d) ∧
    (IsPlain d (Path.ofString dir) → (reset dir d).2.StandsEmpty dir) := by
  rw [reset_of_standing h] at hok hstands ⊢
  split at hok
  · cases hok
  · rename_i href
    rw [if_neg href] at hstands ⊢
    have hne : dir ≠ "" := fun hempty => href (refused_of_empty hempty)
    have hpresent : (removeAll dir d).2.cwd.removed = 0 := by
      rw [← recreate_cwd]
      exact hstands.present
    have hd₁ := (removeAll_cases_of_present h hpresent).standing h hpresent
    have hr := recreate_cases dir d
    generalize recreate dir d = r at hok hr
    cases hr with
    | stuck e => cases hok
    | failed e => cases hok
    | done hgone hmk =>
      obtain ⟨hpath, hmade⟩ := createAll_of_ok hne hmk
      obtain ⟨-, hnul, -⟩ := pathOf_eq_ok hpath
      have hplain (hp : IsPlain d (Path.ofString dir)) :=
        beforeMaking_of_plain h hp hpath hpresent hgone
      dsimp only
      rw [hmade]
      rcases createAfter_cases hd₁ (Path.ofString dir) with ⟨q, s, hfree, hafter⟩ | ⟨hfree, hafter⟩
      · -- The name is free, and the directory is made
        have hd₂ := (withAbove_grows hd₁ (Path.ofString dir)).standing hd₁
        have hstands := hfree.standsEmpty hd₂ hne hnul
        rw [hafter]
        exact ⟨iff_of_true hstands (.inl ⟨q, s, hfree⟩), fun hno => absurd hfree (hno q s),
          fun _ => hstands⟩
      · -- Nothing more is changed
        rw [hafter]
        have hnot : ¬ ∃ q s, (beforeMaking dir d).IsFree (Path.ofString dir) q s := by
          rintro ⟨q, s, hqs⟩
          exact hfree q s hqs
        exact ⟨(or_iff_right hnot).symm, fun _ => rfl, fun hp => (hplain hp).resolve_left hnot⟩

/-- The link is removed, and an empty directory takes its place. -/
theorem reset_empty_linked :
    ((reset "keys" linkedDisk).1 = .ok () ∧ (reset "keys" linkedDisk).2.Standing) ∧
      (reset "keys" linkedDisk).2.StandsEmpty "keys" := by
  have hok : (reset "keys" linkedDisk).1 = .ok () := by
    rw [reset_eq_ok linkedDisk_standing linkedDisk_isRenewable]
  have hstands := reset_standing linkedDisk_standing linkedDisk_isEntryName linkedDisk_inLimit
  refine ⟨⟨hok, hstands⟩,
    (reset_empty_iff linkedDisk "keys" linkedDisk_standing hok hstands).2.2 ?_⟩
  have hpath : Path.ofString "keys" = ⟨false, ["keys"], false⟩ := by decide_cbv
  have hname : IsName "keys" := ⟨by decide, by decide, by decide⟩
  rw [hpath]
  refine ⟨fun s hs => .inr ?_, ⟨"keys", rfl, hname⟩, fun q target hq hlink => ⟨?_, rfl⟩⟩
  · rwa [List.mem_singleton.mp hs]
  · -- The root itself is no link
    rcases List.prefix_concat_iff.mp (show q <+: [] ++ ["keys"] from hq) with rfl | hnil
    · rfl
    · rw [List.prefix_nil.mp hnil] at hlink
      cases hlink

/-- A disk with a directory that is not empty. -/
def staleDisk : Disk := ⟨.dir [("b", .dir [("old.jks", .file [1] .data)])], .root⟩

/-- The same disk after the directory `a` is made beside the other one. -/
private def grownDisk : Disk := staleDisk.insert [] "a" (.dir [])

private theorem grownDisk_leads :
    grownDisk.PathLeads .follow ⟨false, ["a", "..", "b"], false⟩ ["b"] :=
  ⟨0, Nat.zero_le _, .enter ⟨by decide, by decide, by decide⟩ (k := .dir) rfl (by simp)
    (.up rfl (.enter ⟨by decide, by decide, by decide⟩ (k := .dir) rfl (by simp) .done))⟩

/-- Once `a` is there, the path leads on, and so nothing else is made. -/
private theorem recreate_stale : recreate "a/../b" staleDisk = (.ok (), grownDisk) := by
  have hpath : pathOf "a/../b" = .ok ⟨false, ["a", "..", "b"], false⟩ := by decide +kernel
  have ha : IsName "a" := ⟨by decide, by decide, by decide⟩
  have hstanding : staleDisk.Standing := ⟨rfl, rfl⟩
  have hgrown : grownDisk.Standing := ⟨rfl, rfl⟩
  -- Where `a` is missing, nothing is removed, and nothing made by a path that goes on from it
  have hmissing (last : LastLink) (rest : List String) :
      IsMissing (staleDisk.follow last maxLinks (.ofPlace []) ("a" :: rest)) :=
    follow_absent rfl ha rfl
  have hfind : staleDisk.findPath .keep ⟨false, ["a", "..", "b"], false⟩ = .error .noEntry :=
    findPath_eq_noEntry_iff.mpr (hmissing .keep _)
  have hremove : removeAll "a/../b" staleDisk = (.error (.os .noEntry), staleDisk) := by
    simp only [removeAll, find, hpath, bind, Except.bind, hfind, Except.mapError]
  have hfirst (s : String) (rest : List String) :
      ensureDirectory ⟨false, "a" :: s :: rest, false⟩ staleDisk = (.error .noEntry, staleDisk) :=
    ensureDirectory_of_missing hstanding (locatePath_of_missing (hmissing .follow _))
  have hfree : staleDisk.IsFree ⟨false, ["a"], false⟩ [] "a" :=
    ⟨⟨rfl, 0, Nat.zero_le _, .done⟩, rfl, ha, rfl⟩
  have hmade : createComponents false ["a"] staleDisk = (.ok (), grownDisk) :=
    createAfter_of_made (hfree.ensureDirectory hstanding)
  have hup : ensureDirectory ⟨false, ["a", ".."], false⟩ grownDisk = (.ok (), grownDisk) :=
    ensureDirectory_of_pathLeads hgrown (q := [])
      ⟨0, Nat.zero_le _, .enter ha (k := .dir) rfl (by simp) (.up rfl .done)⟩ rfl
  have habove : createComponents false ["..", "a"] staleDisk = (.ok (), grownDisk) :=
    (createAfter_of_ok (hfirst ".." []) hmade).trans hup
  have hcreate : createAll "a/../b" staleDisk = (.ok (), grownDisk) := by
    have hlast := (createAfter_of_ok (hfirst ".." ["b"]) habove).trans
      (ensureDirectory_of_pathLeads hgrown grownDisk_leads rfl)
    simp only [createAll, hpath]
    exact congrArg (fun o => (o.1.mapError IoError.os, o.2)) hlast
  exact recreate_eq_ok (.inr hremove) hcreate

/-- By a missing directory and `..`, a reset succeeds and empties nothing. -/
theorem reset_keeps_stale :
    staleDisk.Standing ∧ (reset "a/../b" staleDisk).1 = .ok () ∧
      ¬ (reset "a/../b" staleDisk).2.StandsEmpty "a/../b" := by
  have hpath : Path.ofString "a/../b" = ⟨false, ["a", "..", "b"], false⟩ := by decide_cbv
  have ha : IsName "a" := ⟨by decide, by decide, by decide⟩
  have hstanding : staleDisk.Standing := ⟨rfl, by decide⟩
  -- The path breaks off, and so it leads to no directory that must be kept
  have hencloses : encloses staleDisk staleDisk.cwd.place "a/../b" = false := by
    refine encloses_eq_false hstanding (fun _ hs => absurd hs List.not_mem_nil) (by decide) ?_
    rintro ⟨q, ⟨-, -, n, -, hq⟩, -⟩
    rw [hpath] at hq
    obtain ⟨k, hk⟩ := hq.entry ha
    cases hk
  have hreset : reset "a/../b" staleDisk = (.ok (), grownDisk) := by
    rw [reset_of_standing hstanding, hencloses, if_neg (by decide_cbv), recreate_stale]
  refine ⟨hstanding, by rw [hreset], ?_⟩
  rw [hreset]
  rintro ⟨q, ⟨_, _, hq⟩, hat, _⟩
  rw [hpath] at hq
  -- The path leads to the directory that was there before
  rw [hq.unique grownDisk_leads] at hat
  cases hat

end OutputDir

end Keysmith
