import Keysmith.Proofs.DiskOperations

/-!
# Making the directories of a path

Making a directory is content with one that is there, and makes the missing ones above it
first.  On a *plain* path, whose steps are names or `.`, this always comes to the wanted
end if nothing but directories stands in the way:

* `ensureDirectory_cases`  a directory is made, is there already, or nothing is changed
* `follow_missing_iff`  a plain path without links leads nowhere just if it breaks off at
  a directory that lacks the next name
* `createComponents_madeTo`  then making its directories makes those that are missing,
  and nothing else
-/

namespace Keysmith

/-! ## The components of a path -/

theorem components_concat {p : Path} {init : List String} {s : String}
    (hsteps : p.steps = init ++ [s]) (hs : s ≠ ".") :
    p.components = ({ p with steps := init } : Path).components ++ [s] := by
  cases init with
  | nil => simp [Path.components, hsteps, hs]
  | cons first rest =>
    have hlast : [s].filter (· != ".") = [s] := by simp [hs]
    rw [List.cons_append] at hsteps
    simp only [Path.components, hsteps]
    split
    · rw [List.filter_append, hlast, List.cons_append]
    · rw [← List.cons_append, List.filter_append, hlast]

theorem mem_steps_of_mem_components {p : Path} {s : String} (hs : s ∈ p.components) :
    s ∈ p.steps := by
  unfold Path.components at hs
  split at hs
  · cases hs
  · rename_i first rest hcons
    rw [hcons]
    split at hs
    · exact (List.mem_cons.mp hs).elim (fun heq => heq ▸ List.mem_cons_self)
        fun hmem => List.mem_cons_of_mem _ (List.mem_filter.mp hmem).1
    · exact (List.mem_filter.mp hs).1

/-- The components of a path lead where its steps lead. -/
theorem Leads.components {v : Place → Option Kind} {n : Nat} {here q : Place} {p : Path}
    (h : Leads v .follow n here p.steps q) : Leads v .follow n here p.components q := by
  rw [Path.components]
  split
  · rename_i hnil
    rwa [hnil] at h
  · rename_i first rest hcons
    rw [hcons] at h
    split
    · rename_i hdot
      simp only [Bool.and_eq_true, beq_iff_eq] at hdot
      rw [hdot.1] at h ⊢
      exact .stay h.of_stay.1 h.of_stay.2.filter_stay
    · exact h.filter_stay

namespace Disk

/-! ## Making a directory that may be there -/

theorem leadsToDirectory_iff {d : Disk} (h : d.Standing) {p : Path} :
    d.leadsToDirectory p = true ↔ ∃ q, d.PathLeads .follow p q ∧ d.root.kindAt q = some .dir := by
  rw [leadsToDirectory]
  cases hf : d.findPath .follow p with
  | error e =>
    simp only [Bool.false_eq_true, false_iff, not_exists, not_and]
    intro q hq
    rw [(findPath_eq_ok_iff h).mpr ⟨q, rfl, hq⟩] at hf
    cases hf
  | ok spot =>
    obtain ⟨q, rfl, hq⟩ := (findPath_eq_ok_iff h).mp hf
    have hdir : (d.entries? (.ofPlace q)).isSome = true ↔ d.root.kindAt q = some .dir := by
      rw [← Option.not_isNone, Bool.not_eq_true', ← Bool.not_eq_true, entries?_ofPlace_isNone,
        not_not]
    rw [hdir]
    constructor
    · exact fun hk => ⟨q, hq, hk⟩
    · rintro ⟨r, hr, hk⟩
      rwa [hq.unique hr]

/-- What making a directory comes to: it is made, or nothing is changed. -/
inductive Making (d : Disk) (p : Path) : Except OsError Unit × Disk → Prop
  | made {q : Place} {s : String} :
      d.IsFree p q s → Making d p (.ok (), d.insert q s (.dir []))
  /-- A directory is there. -/
  | present : (∀ q s, ¬ d.IsFree p q s) → d.leadsToDirectory p = true → Making d p (.ok (), d)
  | failed (e : OsError) :
      (∀ q s, ¬ d.IsFree p q s) → d.leadsToDirectory p = false → Making d p (.error e, d)

theorem ensureDirectory_cases {d : Disk} (h : d.Standing) (p : Path) :
    Making d p (ensureDirectory p d) := by
  rw [ensureDirectory]
  split
  · rename_i d' hmk
    obtain ⟨q, s, hfree, rfl⟩ := (mkdirPath_eq_ok_iff h).mp hmk
    exact .made hfree
  · rename_i e hmk
    have hfree : ∀ q s, ¬ d.IsFree p q s := by
      intro q s hfree
      rw [(mkdirPath_eq_ok_iff h).mpr ⟨q, s, hfree, rfl⟩] at hmk
      cases hmk
    split
    · rename_i hdir
      exact .present hfree hdir
    · rename_i hdir
      exact .failed e hfree (Bool.eq_false_iff.mpr hdir)

theorem IsFree.ensureDirectory {d : Disk} {p : Path} {q : Place} {s : String} (h : d.Standing)
    (hfree : d.IsFree p q s) :
    Disk.ensureDirectory p d = (.ok (), d.insert q s (.dir [])) := by
  rw [Disk.ensureDirectory, (mkdirPath_eq_ok_iff h).mpr ⟨q, s, hfree, rfl⟩]

section After

variable {above : Disk → Except OsError Unit × Disk} {p : Path} {d d' : Disk}

theorem createAfter_of_ne (hfirst : (ensureDirectory p d).1 ≠ .error .noEntry) :
    createAfter above p d = ensureDirectory p d := by
  rw [createAfter]
  split
  · rename_i hmk
    exact absurd (congrArg Prod.fst hmk) hfirst
  · rfl

theorem createAfter_of_made (hfirst : ensureDirectory p d = (.ok (), d')) :
    createAfter above p d = (.ok (), d') := by
  rw [createAfter, hfirst]

theorem createAfter_of_ok (hfirst : ensureDirectory p d = (.error .noEntry, d))
    (habove : above d = (.ok (), d')) : createAfter above p d = ensureDirectory p d' := by
  simp only [createAfter, hfirst, habove]

theorem createAfter_of_error {e : OsError} (hfirst : ensureDirectory p d = (.error .noEntry, d))
    (habove : (above d).1 = .error e) : createAfter above p d = above d := by
  rcases hmk : above d with ⟨ra, d₂⟩
  rw [hmk] at habove
  obtain rfl : ra = .error e := habove
  simp only [createAfter, hfirst, hmk]

end After

end Disk

/-! ## Plain steps -/

/-- The names among steps. -/
def names (steps : List String) : List String := steps.filter (· != ".")

/-- Steps that name entries or stay. -/
def Plain (steps : List String) : Prop := ∀ s ∈ steps, s = "." ∨ IsName s

@[simp] theorem names_nil : names [] = [] := rfl

@[simp] theorem names_dot (steps : List String) : names ("." :: steps) = names steps := rfl

theorem names_cons {s : String} (hs : IsName s) (steps : List String) :
    names (s :: steps) = s :: names steps :=
  List.filter_cons_of_pos (by simpa using hs.ne_dot)

theorem names_append (a b : List String) : names (a ++ b) = names a ++ names b :=
  List.filter_append ..

theorem names_eq_self {steps : List String} (h : ∀ s ∈ steps, IsName s) : names steps = steps :=
  List.filter_eq_self.mpr fun s hs => by simpa using (h s hs).ne_dot

theorem names_concat {p : Path} {s : String} (hlast : p.steps.getLast? = some s) (hs : IsName s) :
    names p.steps = names p.steps.dropLast ++ [s] := by
  conv_lhs => rw [Disk.steps_eq_of_getLast? hlast]
  rw [names_append, names_cons hs, names_nil]

theorem names_components (p : Path) : names p.components = names p.steps := by
  have hfilter (l : List String) : names (l.filter (· != ".")) = names l := by
    simp [names, List.filter_filter]
  unfold Path.components
  split
  · rename_i hnil
    rw [hnil]
  · rename_i first rest hcons
    rw [hcons]
    split
    · rename_i hdot
      simp only [Bool.and_eq_true, beq_iff_eq] at hdot
      rw [hdot.1, names_dot, names_dot, hfilter]
    · rw [hfilter]

theorem Plain.components {p : Path} (h : Plain p.steps) : Plain p.components :=
  fun s hs => h s (mem_steps_of_mem_components hs)

theorem names_walk (p : Path) : names p.walk = names p.steps := by
  rw [Disk.walk_eq, names_append]
  split <;> simp

theorem Plain.walk {p : Path} (h : Plain p.steps) : Plain p.walk := by
  intro s hs
  rw [Disk.walk_eq, List.mem_append] at hs
  rcases hs with hs | hs
  · exact h s hs
  · split at hs
    · exact .inl (List.mem_singleton.mp hs)
    · cases hs

/-- Steps that go on from a name go to an entry. -/
theorem Leads.entry {v : Place → Option Kind} {last : Disk.LastLink} {n : Nat} {here q : Place}
    {s : String} {rest : List String} (h : Leads v last n here (s :: rest) q) (hs : IsName s) :
    ∃ k, v (here ++ [s]) = some k := by
  cases h with
  | stay => exact absurd rfl hs.ne_dot
  | up => exact absurd rfl hs.ne_dotdot
  | enter _ hk => exact ⟨_, hk⟩
  | kept _ hk => exact ⟨_, hk⟩
  | link _ hk => exact ⟨_, hk⟩

/-- Plain steps to a directory lead there. -/
theorem Plain.leads {t : Node} {last : Disk.LastLink} {steps : List String} {here : Place}
    (hsteps : Plain steps) (hdir : t.kindAt (here ++ names steps) = some .dir) :
    Leads t.kindAt last 0 here steps (here ++ names steps) := by
  induction steps generalizing here with
  | nil => simpa using Leads.done
  | cons s steps ih =>
    have hrest : Plain steps := fun s hs => hsteps s (List.mem_cons_of_mem _ hs)
    have hhere : t.kindAt here = some .dir :=
      Node.kindAt_dir_above (List.prefix_append here _) hdir
    rcases hsteps s List.mem_cons_self with rfl | hs
    · exact .stay hhere (ih hrest hdir)
    · rw [names_cons hs, List.append_cons] at hdir ⊢
      have hnext : t.kindAt (here ++ [s]) = some .dir :=
        Node.kindAt_dir_above (List.prefix_append _ _) hdir
      exact .enter hs hnext (by simp) (ih hrest hdir)

/-- Plain steps that meet no link lead to the place that they spell. -/
theorem Plain.place_eq {v : Place → Option Kind} {last : Disk.LastLink} {n : Nat}
    {here q : Place} {steps : List String} (hsteps : Plain steps)
    (h : Leads v last n here steps q)
    (hlinks : ∀ r target, r <+: here ++ names steps → v r ≠ some (.link target)) :
    q = here ++ names steps := by
  induction h with
  | done => simp
  | stay _ _ ih => exact ih (fun s hs => hsteps s (List.mem_cons_of_mem _ hs)) hlinks
  | up => exact absurd rfl ((hsteps _ List.mem_cons_self).resolve_left (by decide)).ne_dotdot
  | enter hs _ _ _ ih =>
    rw [names_cons hs, List.append_cons] at hlinks ⊢
    exact ih (fun s hs => hsteps s (List.mem_cons_of_mem _ hs)) hlinks
  | kept hs => rw [names_cons hs, names_nil]
  | link hs hk =>
    rw [names_cons hs, List.append_cons] at hlinks
    exact absurd hk (hlinks _ _ (List.prefix_append _ _))

namespace Disk

/-- Nothing but directories stands in the way to a place that is missing. -/
structure OpenTo (d : Disk) (x : Place) : Prop where
  missing : d.root.kindAt x = none
  way : ∀ q, q <+: x → d.root.kindAt q = none ∨ d.root.kindAt q = some .dir

/-- The way is open where a directory lacks the next name. -/
theorem OpenTo.of_missing {d : Disk} {here : Place} {s : String}
    (hhere : d.root.kindAt here = some .dir) (hs : d.root.kindAt (here ++ [s]) = none)
    (l : List String) : OpenTo d (here ++ [s] ++ l) where
  missing := Node.kindAt_none_below (List.prefix_append _ l) hs
  way q hq := by
    rcases List.prefix_or_prefix_of_prefix hq (List.prefix_append (here ++ [s]) l) with hle | hle
    · rcases List.prefix_concat_iff.mp hle with rfl | hle
      · exact .inl hs
      · exact .inr (Node.kindAt_dir_above hle hhere)
    · exact .inl (Node.kindAt_none_below hle hs)

/-- The steps lead to no entry because a directory lacks one. -/
def IsMissing (r : Except OsError Reached) : Prop :=
  r = .error .noEntry ∨ ∃ dir name, r = .ok (.vacant dir name)

/-- Where the entry of a step is missing, the steps break off. -/
theorem follow_absent {d : Disk} {last : LastLink} {links : Nat} {here : Place} {s : String}
    {rest : List String} (hhere : d.root.kindAt here = some .dir) (hs : IsName s)
    (hnone : d.root.kindAt (here ++ [s]) = none) :
    IsMissing (d.follow last links (.ofPlace here) (s :: rest)) := by
  rw [follow_name hhere hs, Node.kindAt_eq_none_iff.mp hnone]
  cases rest with
  | nil => exact .inr ⟨_, _, rfl⟩
  | cons => exact .inl rfl

/-- A plain path that meets no link leads nowhere, for lack of an entry, just if nothing
    but directories stands in its way. -/
theorem follow_missing_iff {d : Disk} {last : LastLink} {links : Nat} {here : Place}
    {steps : List String} (hhere : d.root.kindAt here = some .dir) (hsteps : Plain steps)
    (hlinks : ∀ q target, q <+: here ++ names steps →
      d.root.kindAt q ≠ some (.link target)) :
    IsMissing (d.follow last links (.ofPlace here) steps) ↔
      OpenTo d (here ++ names steps) := by
  induction steps generalizing here with
  | nil =>
    rw [follow, names_nil, List.append_nil]
    refine iff_of_false ?_ fun hopen => by cases hopen.missing.symm.trans hhere
    rintro (h | ⟨_, _, h⟩) <;> cases h
  | cons s steps ih =>
    have hrest : Plain steps := fun s hs => hsteps s (List.mem_cons_of_mem _ hs)
    rcases hsteps s List.mem_cons_self with rfl | hs
    · rw [follow_stay hhere]
      exact ih hhere hrest hlinks
    · rw [names_cons hs, List.append_cons] at hlinks ⊢
      have hnext : here ++ [s] <+: here ++ [s] ++ names steps := List.prefix_append _ _
      rcases hk : d.root.kindAt (here ++ [s]) with _ | k
      · -- The path breaks off here
        exact iff_of_true (follow_absent hhere hs hk) (.of_missing hhere hk _)
      · cases k with
        | dir =>
          rw [follow_enter hs hk (by simp)]
          exact ih hk hrest hlinks
        | link target => exact absurd hk (hlinks _ target hnext)
        | file content mode =>
          -- A file is in the way, or at its end
          rw [follow_enter hs hk (by simp)]
          refine iff_of_false ?_ fun hopen => ?_
          · have hfile : (d.entries? (.ofPlace (here ++ [s]))).isNone = true := by
              rw [entries?_ofPlace_isNone, hk]
              simp
            cases steps with
            | nil =>
              rw [follow]
              rintro (h | ⟨_, _, h⟩) <;> cases h
            | cons t steps =>
              rw [follow, if_pos hfile]
              rintro (h | ⟨_, _, h⟩) <;> cases h
          · rcases hopen.way _ hnext with h | h <;> cases hk.symm.trans h

theorem OpenTo.isMissing {d : Disk} {last : LastLink} {links : Nat} {here : Place}
    {steps : List String} (h : OpenTo d (here ++ names steps))
    (hhere : d.root.kindAt here = some .dir) (hsteps : Plain steps) :
    IsMissing (d.follow last links (.ofPlace here) steps) := by
  refine (follow_missing_iff hhere hsteps fun q target hq hlink => ?_).mpr h
  rcases h.way q hq with hk | hk <;> cases hlink.symm.trans hk

theorem findPath_eq_noEntry_iff {d : Disk} {last : LastLink} {p : Path} :
    d.findPath last p = .error .noEntry ↔
      IsMissing (d.follow last maxLinks (start p d.cwd) p.walk) := by
  rw [findPath, reachPath, IsMissing]
  split <;> simp_all

theorem Standing.start_isDir {d : Disk} (h : d.Standing) (p : Path) :
    d.root.kindAt (startPlace p d.cwd.place) = some .dir :=
  Node.kindAt_dir_above (startPlace_le p _) h.isDir

/-- The place that a path spells, name by name from where it starts. -/
def spelled (d : Disk) (p : Path) : Place := startPlace p d.cwd.place ++ names p.steps

/-- The place that a path spells without its last step. -/
def spelledAbove (d : Disk) (p : Path) : Place :=
  startPlace p d.cwd.place ++ names p.steps.dropLast

theorem spelled_eq {d : Disk} {p : Path} {s : String} (hlast : p.steps.getLast? = some s)
    (hs : IsName s) : d.spelled p = d.spelledAbove p ++ [s] := by
  rw [spelled, spelledAbove, names_concat hlast hs, List.append_assoc]

/-- What a path spells depends on the working directory only. -/
theorem spelled_congr {d d' : Disk} (h : d'.cwd = d.cwd) (p : Path) :
    d'.spelled p = d.spelled p ∧ d'.spelledAbove p = d.spelledAbove p := by
  rw [spelled, spelled, spelledAbove, spelledAbove, h]
  exact ⟨rfl, rfl⟩

/-- A plain path leads to the directory at the place that it spells. -/
theorem pathLeads_spelled {d : Disk} {p : Path} (hsteps : Plain p.steps)
    (hdir : d.root.kindAt (d.spelled p) = some .dir) (last : LastLink) :
    d.PathLeads last p (d.spelled p) := by
  rw [spelled, ← names_walk] at hdir ⊢
  exact ⟨0, Nat.zero_le _, hsteps.walk.leads hdir⟩

/-- A path that leads somewhere has a directory above its last step. -/
theorem PathLeads.above {d : Disk} {last : LastLink} {p : Path} {q : Place} (h : d.Standing)
    (hq : d.PathLeads last p q) : ∃ r, d.Above p r := by
  obtain ⟨n, hn, hlead⟩ := hq
  cases hlast : p.steps.getLast? with
  | none =>
    refine ⟨_, h.start_isDir p, 0, Nat.zero_le _, ?_⟩
    rw [List.getLast?_eq_none_iff.mp hlast]
    exact .done
  | some s =>
    rw [walk_eq, steps_eq_of_getLast? hlast, List.append_assoc] at hlead
    obtain ⟨n₁, n₂, mid, rfl, hfirst, hrest⟩ := hlead.split (List.cons_ne_nil s _)
    exact ⟨mid, hrest.dir_of_ne_nil (List.cons_ne_nil s _), n₁, (Nat.le_add_right n₁ n₂).trans hn,
      hfirst⟩

/-- Where the way to a path's last step breaks off, no directory is made. -/
theorem ensureDirectory_of_missing {d : Disk} {p : Path} (h : d.Standing)
    (hloc : d.locatePath p = .error .noEntry) : ensureDirectory p d = (.error .noEntry, d) := by
  have hlead : d.leadsToDirectory p = false := by
    rw [Bool.eq_false_iff, Ne, leadsToDirectory_iff h]
    rintro ⟨q, hq, -⟩
    obtain ⟨r, hr⟩ := hq.above h
    cases hloc.symm.trans ((locatePath_eq_ok_iff h).mpr ⟨rfl, r, rfl, hr⟩)
  rw [ensureDirectory, mkdirPath, hloc]
  simp [hlead]

/-- The way to a path's last step breaks off where an entry on it is missing. -/
theorem locatePath_of_missing {d : Disk} {p : Path}
    (hmissing : IsMissing (d.follow .follow maxLinks (start p d.cwd) p.steps.dropLast)) :
    d.locatePath p = .error .noEntry := by
  rw [locatePath, locateFrom]
  obtain hm | ⟨dir, name, hm⟩ := hmissing <;> rw [hm]

/-- Where even the directory above is missing, no directory is made. -/
theorem ensureDirectory_eq_noEntry {d : Disk} (h : d.Standing) {p : Path}
    (hsteps : Plain p.steps) (hopen : OpenTo d (d.spelledAbove p)) :
    ensureDirectory p d = (.error .noEntry, d) := by
  refine ensureDirectory_of_missing h (locatePath_of_missing ?_)
  rw [h.start_eq]
  exact hopen.isMissing (h.start_isDir p) fun s hs => hsteps s (List.mem_of_mem_dropLast hs)

/-- A path whose name is free leads nowhere. -/
theorem IsFree.not_pathLeads {d : Disk} {p : Path} {q r : Place} {s : String} {last : LastLink}
    (h : d.IsFree p q s) : ¬ d.PathLeads last p r := by
  rintro ⟨n, _, hr⟩
  obtain ⟨_, m, _, hq⟩ := h.above
  rw [walk_eq, steps_eq_of_getLast? h.last, List.append_assoc] at hr
  obtain ⟨_, _, mid, _, hfirst, hlast⟩ := hr.split (List.cons_ne_nil s _)
  rw [hfirst.unique hq] at hlast
  obtain ⟨k, hk⟩ := hlast.entry h.name
  cases h.free.symm.trans hk

/-- A path whose name is free leads to the directory that is made there, which is empty. -/
theorem IsFree.leads_made {d : Disk} {p : Path} {q : Place} {s : String} (h : d.IsFree p q s) :
    (d.insert q s (.dir [])).PathLeads .follow p (q ++ [s]) ∧
      (d.insert q s (.dir [])).root.at? (q ++ [s]) = some (.dir []) := by
  have hgrow := h.grows
  have hat : (d.insert q s (.dir [])).root.at? (q ++ [s]) = some (.dir []) :=
    Node.at?_insert_self _ h.above.1
  obtain ⟨n, hn, hlead⟩ := h.above.2
  have habove : (d.insert q s (.dir [])).Above p q :=
    ⟨hgrow.kept _ _ h.above.1, n, hn, hlead.mono hgrow.kept⟩
  refine ⟨?_, hat⟩
  exact habove.pathLeads h.last h.name (Node.kindAt_eq_dir_iff.mpr ⟨[], hat⟩) (by simp)
    (fun _ => rfl) .follow

/-- A directory that a path leads to is left as it is. -/
theorem ensureDirectory_of_pathLeads {d : Disk} (h : d.Standing) {p : Path} {q : Place}
    (hq : d.PathLeads .follow p q) (hdir : d.root.kindAt q = some .dir) :
    ensureDirectory p d = (.ok (), d) := by
  have hcases := ensureDirectory_cases h p
  generalize ensureDirectory p d = o at hcases
  cases hcases with
  | made hfree => exact absurd hq hfree.not_pathLeads
  | present => rfl
  | failed e _ hnot =>
    rw [(leadsToDirectory_iff h).mpr ⟨_, hq, hdir⟩] at hnot
    cases hnot

theorem ensureDirectory_eq_self {d : Disk} (h : d.Standing) {p : Path} (hsteps : Plain p.steps)
    (hdir : d.root.kindAt (d.spelled p) = some .dir) : ensureDirectory p d = (.ok (), d) :=
  ensureDirectory_of_pathLeads h (pathLeads_spelled hsteps hdir .follow) hdir

/-- A directory is made where the directory above lacks its name. -/
theorem isFree_spelled {d : Disk} {p : Path} {s : String} (hsteps : Plain p.steps)
    (hlast : p.steps.getLast? = some s) (hs : IsName s)
    (habove : d.root.kindAt (d.spelledAbove p) = some .dir)
    (hfree : d.root.kindAt (d.spelled p) = none) : d.IsFree p (d.spelledAbove p) s where
  above := ⟨habove, 0, Nat.zero_le _,
    Plain.leads (fun s hs => hsteps s (List.mem_of_mem_dropLast hs)) habove⟩
  last := hlast
  name := hs
  free := by
    rwa [spelled_eq hlast hs] at hfree

/-- A disk with directories made all along the way to a place, and nothing else. -/
structure MadeTo (x : Place) (d d' : Disk) : Prop where
  cwd_eq : d'.cwd = d.cwd
  kindAt_eq : ∀ q, d'.root.kindAt q = if q <+: x then some .dir else d.root.kindAt q

theorem MadeTo.refl {x : Place} {d : Disk} (h : d.root.kindAt x = some .dir) : MadeTo x d d where
  cwd_eq := rfl
  kindAt_eq q := by
    split
    · rename_i hq
      exact Node.kindAt_dir_above hq h
    · rfl

theorem MadeTo.trans {x y : Place} {d d' d'' : Disk} (h : MadeTo x d d') (h' : MadeTo y d' d'')
    (hxy : x <+: y) : MadeTo y d d'' where
  cwd_eq := h'.cwd_eq.trans h.cwd_eq
  kindAt_eq q := by
    rw [h'.kindAt_eq, h.kindAt_eq]
    by_cases hq : q <+: y
    · rw [if_pos hq, if_pos hq]
    · rw [if_neg hq, if_neg hq, if_neg fun hqx => hq (hqx.trans hxy)]

theorem MadeTo.standing {x : Place} {d d' : Disk} (h : MadeTo x d d') (hd : d.Standing) :
    d'.Standing where
  present := by rw [h.cwd_eq]; exact hd.present
  isDir := by
    rw [h.cwd_eq, h.kindAt_eq]
    split
    · rfl
    · exact hd.isDir

theorem IsFree.madeTo {d : Disk} {p : Path} {q : Place} {s : String} (h : d.IsFree p q s) :
    MadeTo (q ++ [s]) d (d.insert q s (.dir [])) where
  cwd_eq := rfl
  kindAt_eq r := by
    rw [insert, Node.kindAt_insert h.above.1 h.free]
    by_cases hr : r = q ++ [s]
    · rw [if_pos hr, if_pos (hr ▸ List.prefix_rfl)]
    · rw [if_neg hr]
      split
      · rename_i hle
        exact Node.kindAt_dir_above ((List.prefix_concat_iff.mp hle).resolve_left hr) h.above.1
      · rfl

/-- Below a directory, a directory is made or is there, unless something else is. -/
theorem ensureDirectory_madeTo {d : Disk} (h : d.Standing) {p : Path} {s : String}
    (hsteps : Plain p.steps) (hlast : p.steps.getLast? = some s)
    (habove : d.root.kindAt (d.spelledAbove p) = some .dir)
    (hway : d.root.kindAt (d.spelled p) = none ∨ d.root.kindAt (d.spelled p) = some .dir) :
    ∃ d', ensureDirectory p d = (.ok (), d') ∧ MadeTo (d.spelled p) d d' := by
  rcases hway with hnone | hdir
  · rcases hsteps s (List.mem_of_getLast? hlast) with rfl | hs
    · -- A last step that stays leads to the directory above
      rw [spelled, steps_eq_of_getLast? hlast, names_append, names_dot, names_nil,
        List.append_nil] at hnone
      cases hnone.symm.trans habove
    · have hfree := isFree_spelled hsteps hlast hs habove hnone
      rw [spelled_eq hlast hs]
      exact ⟨_, hfree.ensureDirectory h, hfree.madeTo⟩
  · exact ⟨d, ensureDirectory_eq_self h hsteps hdir, .refl hdir⟩

/-- Where nothing but directories stands in the way, making the directories of a plain
    path makes those that are missing, and nothing else.  The components are given the
    last one first. -/
theorem createComponents_madeTo {d : Disk} (h : d.Standing) (absolute : Bool)
    {comps : List String} (hsteps : Plain comps) {here : Place}
    (hhere : startPlace ⟨absolute, [], false⟩ d.cwd.place = here)
    (hway : ∀ q, q <+: here ++ names comps.reverse →
      d.root.kindAt q = none ∨ d.root.kindAt q = some .dir) :
    ∃ d', createComponents absolute comps d = (.ok (), d') ∧
      MadeTo (here ++ names comps.reverse) d d' := by
  induction comps with
  | nil =>
    refine ⟨d, rfl, .refl ?_⟩
    rw [List.reverse_nil, names_nil, List.append_nil, ← hhere]
    exact h.start_isDir _
  | cons name above ih =>
    let p : Path := ⟨absolute, (name :: above).reverse, false⟩
    have hp : Plain p.steps := fun s hs => hsteps s (List.mem_reverse.mp hs)
    have hlast : p.steps.getLast? = some name := by simp [p]
    have hle : here ++ names above.reverse <+: here ++ names (name :: above).reverse := by
      rw [List.reverse_cons, names_append, ← List.append_assoc]
      exact List.prefix_append _ _
    have hspelled : d.spelled p = here ++ names (name :: above).reverse := by
      rw [← hhere]
      rfl
    have hspelledAbove : d.spelledAbove p = here ++ names above.reverse := by
      rw [spelledAbove, ← hhere, show p.steps.dropLast = above.reverse by simp [p]]
      rfl
    rcases hway _ hle with hnone | hdir
    · -- The directory above is made first
      have hfirst : ensureDirectory p d = (.error .noEntry, d) := by
        refine ensureDirectory_eq_noEntry h hp ?_
        rw [hspelledAbove]
        exact ⟨hnone, fun q hq => hway q (hq.trans hle)⟩
      obtain ⟨d₂, habove, hmade⟩ := ih (fun s hs => hsteps s (List.mem_cons_of_mem _ hs))
        fun q hq => hway q (hq.trans hle)
      obtain ⟨hspelled₂, hspelledAbove₂⟩ := spelled_congr hmade.cwd_eq p
      obtain ⟨d', hsecond, hmade'⟩ := ensureDirectory_madeTo (hmade.standing h) hp hlast
        (by rw [hspelledAbove₂, hspelledAbove, hmade.kindAt_eq, if_pos List.prefix_rfl])
        (by
          rw [hspelled₂, hspelled, hmade.kindAt_eq]
          split
          · exact .inr rfl
          · exact hway _ List.prefix_rfl)
      rw [hspelled₂, hspelled] at hmade'
      exact ⟨d', (createAfter_of_ok hfirst habove).trans hsecond, hmade.trans hmade' hle⟩
    · obtain ⟨d', hfirst, hmade⟩ := ensureDirectory_madeTo h hp hlast
        (by rw [hspelledAbove]; exact hdir)
        (by rw [hspelled]; exact hway _ List.prefix_rfl)
      rw [hspelled] at hmade
      exact ⟨d', createAfter_of_made hfirst, hmade⟩

end Disk

end Keysmith
