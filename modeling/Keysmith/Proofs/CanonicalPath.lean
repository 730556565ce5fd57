import Keysmith.Proofs.DirectoryMaking
import Keysmith.Proofs.PathText

/-!
# Canonical paths

To find the canonical path of something, its way is gone from place to place, and every place on
it is asked for by an absolute path of its own.  `Resolves` has the rules of `Leads`, and a limit
to the length of what is asked.  `Disk.resolve` computes it (`resolve_eq_ok_iff`).

* `Resolves.leads`  what is found is where the path leads
* `Leads.resolves`  where no place is too deep, all is found that a path leads to
* `canonicalize_join_eq_ok_iff`  the canonical form of a path behind the working directory's

So a path can lead somewhere and have no canonical form.  `InLimit` says that this does not happen
to a path that leads to the working directory or above it; on a disk without places that are too
deep it never does (`inLimit_of_short`).
-/

namespace Keysmith

open Disk (LastLink asked pathLimit maxLinks)

/-- What a step from a place is asked for by is short enough for a path. -/
def IsShort (here : Place) (step : String) : Prop := (asked here step).utf8ByteSize < pathLimit

instance (here : Place) (step : String) : Decidable (IsShort here step) :=
  inferInstanceAs (Decidable ((asked here step).utf8ByteSize < pathLimit))

/-- Steps from a place lead to another one, by following so many links, and all that is asked for
    on the way is short enough. -/
inductive Resolves (v : Place → Option Kind) : Nat → Place → List String → Place → Prop
  | done {here : Place} : Resolves v 0 here [] here
  | stay {n : Nat} {here : Place} {rest : List String} {q : Place} :
      IsShort here "." → v here = some .dir → Resolves v n here rest q →
      Resolves v n here ("." :: rest) q
  | up {n : Nat} {here : Place} {rest : List String} {q : Place} :
      IsShort here ".." → v here = some .dir → Resolves v n here.dropLast rest q →
      Resolves v n here (".." :: rest) q
  | enter {n : Nat} {here : Place} {s : String} {k : Kind} {rest : List String} {q : Place} :
      IsShort here s → IsName s → v (here ++ [s]) = some k → (∀ target, k ≠ .link target) →
      Resolves v n (here ++ [s]) rest q → Resolves v n here (s :: rest) q
  | link {n : Nat} {here : Place} {s target : String} {rest : List String} {q : Place} :
      IsShort here s → IsName s → v (here ++ [s]) = some (.link target) →
      Resolves v n (startPlace (Path.ofString target) here)
        ((Path.ofString target).walk ++ rest) q →
      Resolves v (n + 1) here (s :: rest) q

theorem IsEntryName.isName {s : String} (h : IsEntryName s) : IsName s :=
  ⟨h.ne_dot, h.ne_dotdot, h.size_le⟩

/-! ## Lengths -/

theorem IsName.asked_eq {s : String} (hs : IsName s) (here : Place) :
    asked here s = absolutePath (here ++ [s]) :=
  if_neg (not_or.mpr ⟨hs.ne_dot, hs.ne_dotdot⟩)

/-- What is asked for is no shorter than the path of the place. -/
theorem size_le_asked (here : Place) (step : String) :
    (absolutePath here).utf8ByteSize ≤ (asked here step).utf8ByteSize := by
  rw [asked]
  split
  · rw [String.utf8ByteSize_append]
    exact Nat.le_add_right _ _
  · exact size_absolutePath_le (List.prefix_append here [step])

/-- A step that names nothing asks for a directory at the place itself. -/
theorem isShort_of_navigation {here : Place} {step : String} (hstep : step = "." ∨ step = "..")
    (hsize : (absolutePath here).utf8ByteSize + 1 < pathLimit) : IsShort here step := by
  rw [IsShort, asked, if_pos hstep, String.utf8ByteSize_append]
  exact hsize

/-! ## Properties of the rules -/

namespace Resolves

variable {v : Place → Option Kind} {n : Nat} {here q : Place} {steps : List String}

/-- What is found is where the steps lead. -/
theorem leads (h : Resolves v n here steps q) : Leads v .follow n here steps q := by
  induction h with
  | done => exact .done
  | stay _ hdir _ ih => exact .stay hdir ih
  | up _ hdir _ ih => exact .up hdir ih
  | enter _ hs hk hnot _ ih => exact .enter hs hk hnot ih
  | link _ hs hk _ ih => exact .link hs hk (fun _ => rfl) ih

/-- Where a step is gone, the path of the place is short enough. -/
theorem size_lt (h : Resolves v n here steps q) (hne : steps ≠ []) :
    (absolutePath here).utf8ByteSize < pathLimit := by
  have hle : ∀ {step : String}, IsShort here step →
      (absolutePath here).utf8ByteSize < pathLimit :=
    fun hshort => Nat.lt_of_le_of_lt (size_le_asked here _) hshort
  cases h with
  | done => exact absurd rfl hne
  | stay hshort => exact hle hshort
  | up hshort => exact hle hshort
  | enter hshort => exact hle hshort
  | link hshort => exact hle hshort

/-- On the way down to a directory by names, nothing is asked for that is longer than what a
    step from there asks for. -/
theorem down_iff {t : Node} {names : List String} (hnames : ∀ s ∈ names, IsName s)
    (hne : steps ≠ []) (hdir : t.kindAt (here ++ names) = some .dir) :
    Resolves t.kindAt n here (names ++ steps) q ↔
      Resolves t.kindAt n (here ++ names) steps q := by
  induction names generalizing here with
  | nil => rw [List.nil_append, List.append_nil]
  | cons s names ih =>
    have hs := hnames s List.mem_cons_self
    rw [List.append_cons] at hdir ⊢
    have hnext : t.kindAt (here ++ [s]) = some .dir :=
      Node.kindAt_dir_above (List.prefix_append _ names) hdir
    rw [List.cons_append, ← ih (fun t ht => hnames t (List.mem_cons_of_mem _ ht)) hdir]
    constructor
    · intro h
      cases h with
      | stay => exact absurd rfl hs.ne_dot
      | up => exact absurd rfl hs.ne_dotdot
      | enter _ _ _ _ hrest => exact hrest
      | link _ _ hk => cases hnext.symm.trans hk
    · intro h
      refine .enter ?_ hs hnext (by simp) h
      rw [IsShort, hs.asked_eq]
      exact h.size_lt (List.append_ne_nil_of_right_ne_nil _ hne)

/-- By way of a place that is too deep nothing is found. -/
theorem not_of_deep {t : Node} {names : List String} (hnames : ∀ s ∈ names, IsName s)
    (hne : steps ≠ []) (hdir : t.kindAt (here ++ names) = some .dir)
    (hdeep : pathLimit ≤ (absolutePath (here ++ names)).utf8ByteSize) :
    ¬ Resolves t.kindAt n here (names ++ steps) q :=
  fun h => Nat.not_lt.mpr hdeep (((down_iff hnames hne hdir).mp h).size_lt hne)

/-- Down by names to a directory that is not too deep, and on by steps that name nothing, all is
    found. -/
theorem of_navigation {t : Node} {names steps : List String} (hnames : ∀ s ∈ names, IsName s)
    (hdir : t.kindAt (here ++ names) = some .dir)
    (hsize : (absolutePath (here ++ names)).utf8ByteSize + 1 < pathLimit)
    (hsteps : ∀ s ∈ steps, s = "." ∨ s = "..") :
    ∃ q, Resolves t.kindAt 0 here (names ++ steps) q ∧ q <+: here ++ names := by
  induction names generalizing here with
  | nil =>
    rw [List.append_nil] at hdir hsize
    rw [List.nil_append, List.append_nil]
    induction steps generalizing here with
    | nil => exact ⟨here, .done, List.prefix_rfl⟩
    | cons s steps ih =>
      have hrest : ∀ s ∈ steps, s = "." ∨ s = ".." :=
        fun s hs => hsteps s (List.mem_cons_of_mem _ hs)
      have hshort := isShort_of_navigation (hsteps s List.mem_cons_self) hsize
      rcases hsteps s List.mem_cons_self with rfl | rfl
      · obtain ⟨q, hq, hle⟩ := ih hrest hdir hsize
        exact ⟨q, .stay hshort hdir hq, hle⟩
      · -- A directory further up has a shorter path
        have hup : here.dropLast <+: here := here.dropLast_prefix
        have hsizeUp := Nat.lt_of_le_of_lt (Nat.succ_le_succ (size_absolutePath_le hup)) hsize
        obtain ⟨q, hq, hle⟩ := ih hrest (Node.kindAt_dir_above hup hdir) hsizeUp
        exact ⟨q, .up hshort hdir hq, hle.trans hup⟩
  | cons s names ih =>
    have hs := hnames s List.mem_cons_self
    rw [List.append_cons] at hdir hsize ⊢
    have hle : here ++ [s] <+: here ++ [s] ++ names := List.prefix_append _ names
    obtain ⟨q, hq, hqle⟩ := ih (fun t ht => hnames t (List.mem_cons_of_mem _ ht)) hdir hsize
    refine ⟨q, .enter ?_ hs (Node.kindAt_dir_above hle hdir) (by simp) hq, hqle⟩
    rw [IsShort, hs.asked_eq]
    exact Nat.lt_of_le_of_lt (size_absolutePath_le hle) (Nat.lt_of_succ_lt hsize)

end Resolves

/-- Where no place is too deep, all is found that steps lead to. -/
theorem Leads.resolves {v : Place → Option Kind} {n : Nat} {here q : Place} {steps : List String}
    (hv : ∀ p, v p ≠ none → (absolutePath p).utf8ByteSize + 1 < pathLimit)
    (h : Leads v .follow n here steps q) : Resolves v n here steps q := by
  have hname : ∀ {here : Place} {s : String} {k : Kind}, IsName s → v (here ++ [s]) = some k →
      IsShort here s := by
    intro here s k hs hk
    rw [IsShort, hs.asked_eq]
    exact Nat.lt_of_succ_lt (hv _ (by rw [hk]; exact Option.some_ne_none k))
  have hdirectory : ∀ {here : Place} {s : String}, s = "." ∨ s = ".." → v here = some .dir →
      IsShort here s :=
    fun hs hdir => isShort_of_navigation hs (hv _ (by rw [hdir]; exact Option.some_ne_none _))
  generalize hlast : LastLink.follow = last at h
  induction h with
  | done => exact .done
  | stay hdir _ ih => exact .stay (hdirectory (.inl rfl) hdir) hdir ih
  | up hdir _ ih => exact .up (hdirectory (.inr rfl) hdir) hdir ih
  | enter hs hk hnot _ ih => exact .enter (hname hs hk) hs hk hnot ih
  | kept _ _ hkeep =>
    subst hlast
    cases hkeep
  | link hs hk _ _ ih => exact .link (hname hs hk) hs hk ih

/-! ## The rules and the computation -/

namespace Disk

section Step

variable {d : Disk} {here : Place} {s : String} {links : Nat} {rest : List String}

theorem resolve_stay (hshort : IsShort here ".") (hhere : d.root.kindAt here = some .dir) :
    d.resolve links here ("." :: rest) = d.resolve links here rest := by
  rw [resolve, if_neg (Nat.not_le.mpr hshort), if_neg (not_isNone_entries?.mpr hhere), if_pos rfl]

theorem resolve_up (hshort : IsShort here "..") (hhere : d.root.kindAt here = some .dir) :
    d.resolve links here (".." :: rest) = d.resolve links here.dropLast rest := by
  rw [resolve, if_neg (Nat.not_le.mpr hshort), if_neg (not_isNone_entries?.mpr hhere),
    if_neg (by decide), if_pos rfl]

/-- A step by a name to an entry goes to it, or through it if it is a link. -/
theorem resolve_name (hshort : IsShort here s) (hs : IsName s) {x : Node}
    (hx : d.root.at? (here ++ [s]) = some x) :
    d.resolve links here (s :: rest) =
      match x with
      | .link target =>
        match links with
        | 0 => .error .tooManyLinks
        | links + 1 => d.resolve links (startPlace (Path.ofString target) here)
            ((Path.ofString target).walk ++ rest)
      | _ => d.resolve links (here ++ [s]) rest := by
  have hhere : d.root.kindAt here = some .dir :=
    Node.kindAt_dir_of_entry (Node.kindAt_eq_some_iff.mpr ⟨x, hx, rfl⟩)
  have hlookup := (lookup?_eq_ok_iff hhere).mpr ⟨hs.size_le, hx⟩
  rw [resolve, if_neg (Nat.not_le.mpr hshort), if_neg (not_isNone_entries?.mpr hhere),
    if_neg hs.ne_dot, if_neg hs.ne_dotdot, hlookup]
  cases x with
  | file content mode => rfl
  | dir es => rfl
  | link target => cases links <;> rfl

end Step

/-- What `resolve` finds, the rules allow within the budget. -/
private theorem resolves_of_resolve {d : Disk} {links : Nat} {here q : Place}
    {steps : List String} (h : d.resolve links here steps = .ok q) :
    ∃ n, n ≤ links ∧ Resolves d.root.kindAt n here steps q := by
  fun_induction Disk.resolve d links here steps with
  | case1 links here =>
    -- No step is left
    cases h
    exact ⟨0, Nat.zero_le _, .done⟩
  | case4 links here rest hdir hshort ih =>
    -- A step that stays
    obtain ⟨n, hn, hq⟩ := ih h
    exact ⟨n, hn, .stay (Nat.not_le.mp hshort) (not_isNone_entries?.mp hdir) hq⟩
  | case5 links here rest hdir hshort _ ih =>
    -- A step up
    obtain ⟨n, hn, hq⟩ := ih h
    exact ⟨n, hn, .up (Nat.not_le.mp hshort) (not_isNone_entries?.mp hdir) hq⟩
  | case9 here step rest hshort hdir hdot hup target hent links p ih =>
    -- A link, which uses up one of the budget
    obtain ⟨hsize, hat⟩ := (lookup?_eq_ok_iff (not_isNone_entries?.mp hdir)).mp hent
    obtain ⟨n, hn, hq⟩ := ih h
    exact ⟨n + 1, Nat.succ_le_succ hn, .link (Nat.not_le.mp hshort) ⟨hdot, hup, hsize⟩
      (Node.kindAt_eq_some_iff.mpr ⟨_, hat, rfl⟩) hq⟩
  | case10 links here step rest hshort hdir hdot hup x hlink hent ih =>
    -- An entry that is no link
    obtain ⟨hsize, hat⟩ := (lookup?_eq_ok_iff (not_isNone_entries?.mp hdir)).mp hent
    obtain ⟨n, hn, hq⟩ := ih h
    refine ⟨n, hn, .enter (Nat.not_le.mp hshort) ⟨hdot, hup, hsize⟩
      (Node.kindAt_eq_some_iff.mpr ⟨x, hat, rfl⟩) ?_ hq⟩
    intro target hk
    cases x with
    | link t => exact hlink t rfl
    | file content mode => cases hk
    | dir es => cases hk
  | _ =>
    -- All other ends are failures
    cases h

/-- What the rules allow, `resolve` finds within each budget that suffices. -/
private theorem resolve_of_resolves {d : Disk} {n links : Nat} {here q : Place}
    {steps : List String} (h : Resolves d.root.kindAt n here steps q) (hn : n ≤ links) :
    d.resolve links here steps = .ok q := by
  induction h generalizing links with
  | done => rw [resolve]
  | stay hshort hdir _ ih => rw [resolve_stay hshort hdir, ih hn]
  | up hshort hdir _ ih => rw [resolve_up hshort hdir, ih hn]
  | enter hshort hs hk hnot _ ih =>
    obtain ⟨x, hx, rfl⟩ := Node.kindAt_eq_some_iff.mp hk
    rw [resolve_name hshort hs hx]
    cases x with
    | file content mode => exact ih hn
    | dir es => exact ih hn
    | link target => exact absurd rfl (hnot target)
  | link hshort hs hk _ ih =>
    obtain ⟨links, rfl⟩ := Nat.exists_eq_add_of_le' hn
    rw [← Nat.add_assoc, resolve_name hshort hs (Node.kindAt_eq_link_iff.mp hk)]
    exact ih (Nat.le_add_left _ links)

/-- `resolve` finds what the rules allow within its budget of links. -/
theorem resolve_eq_ok_iff {d : Disk} {links : Nat} {here q : Place} {steps : List String} :
    d.resolve links here steps = .ok q ↔
      ∃ n, n ≤ links ∧ Resolves d.root.kindAt n here steps q := by
  constructor
  · exact resolves_of_resolve
  · rintro ⟨n, hn, hq⟩
    exact resolve_of_resolves hq hn

/-! ## Canonical forms -/

/-- A text is a path with a canonical form, that of a place, from the working directory. -/
def Canonical (d : Disk) (text : String) (q : Place) : Prop :=
  text ≠ "" ∧ '\x00' ∉ text.toList ∧ ∃ n, n ≤ maxLinks ∧
    Resolves d.root.kindAt n (startPlace (Path.ofString text) d.cwd.place)
      (Path.ofString text).walk q

/-- A path with a canonical form names the place of that form, with all links followed. -/
theorem Canonical.names {d : Disk} {text : String} {q : Place} (h : d.Canonical text q) :
    d.Names .follow text q := by
  obtain ⟨hne, hnul, n, hn, hq⟩ := h
  exact ⟨hne, hnul, n, hn, hq.leads⟩

/-- Where no place is too deep, each path that names a place has its canonical form. -/
theorem Names.canonical {d : Disk} {text : String} {q : Place} (h : d.Names .follow text q)
    (hshort : ∀ p, d.root.kindAt p ≠ none → (absolutePath p).utf8ByteSize + 1 < pathLimit) :
    d.Canonical text q := by
  obtain ⟨hne, hnul, n, hn, hq⟩ := h
  exact ⟨hne, hnul, n, hn, hq.resolves hshort⟩

/-- A path to the working directory or above it has its canonical form, unless it only moves
    between directories. -/
def InLimit (d : Disk) (text : String) : Prop :=
  ∀ q, d.Names .follow text q → q <+: d.cwd.place →
    (∀ s ∈ (Path.ofString text).steps, s = "." ∨ s = "..") ∨ d.Canonical text q

/-- Where no place is too deep, this holds of all paths. -/
theorem inLimit_of_short {d : Disk}
    (hshort : ∀ p, d.root.kindAt p ≠ none → (absolutePath p).utf8ByteSize + 1 < pathLimit)
    (text : String) : d.InLimit text :=
  fun _ hq _ => .inr (hq.canonical hshort)

theorem canonicalize_eq_ok_iff {d : Disk} {path : String} {q : Place} :
    d.canonicalize path = .ok q ↔ '\x00' ∉ path.toList ∧
      ∃ n, n ≤ maxLinks ∧ Resolves d.root.kindAt n [] (Path.ofString path).walk q := by
  rw [← resolve_eq_ok_iff, canonicalize]
  by_cases hnul : '\x00' ∈ path.toList
  · simp [hnul]
  · cases d.resolve maxLinks [] (Path.ofString path).walk <;> simp [hnul, Except.mapError]

section WorkingDirectory

variable {d : Disk} (h : d.Standing) (hnames : ∀ s ∈ d.cwd.place, IsEntryName s)

include h hnames

/-- The canonical form of a path behind the working directory's. -/
theorem canonicalize_join_eq_ok_iff {dir : String} (hne : dir ≠ "") {q : Place} :
    d.canonicalize (Path.join (absolutePath d.cwd.place) dir) = .ok q ↔ d.Canonical dir q := by
  rw [canonicalize_eq_ok_iff, Canonical]
  by_cases habs : dir.toList.head? = some '/'
  · -- An absolute path is taken as it is
    have hstart : startPlace (Path.ofString dir) d.cwd.place = [] :=
      if_pos (by simp [Path.ofString, habs])
    simp only [join_of_absolute habs, hstart, hne, ne_eq, not_false_eq_true, true_and]
  · obtain ⟨slash, hslash, hpath⟩ :=
      ofString_join_absolutePath (fun s hs => (hnames s hs).toIsComponent) habs
    rw [hslash hne] at hpath
    have hstart : startPlace (Path.ofString dir) d.cwd.place = d.cwd.place :=
      if_neg (by simp [Path.ofString, habs])
    have hwalk : (Path.ofString (Path.join (absolutePath d.cwd.place) dir)).walk =
        d.cwd.place ++ (Path.ofString dir).walk := by
      rw [hpath, walk_eq, walk_eq, List.append_assoc]
    have hsteps : (Path.ofString dir).walk ≠ [] := by
      rw [walk_eq]
      exact List.append_ne_nil_of_left_ne_nil (steps_ne_nil_of_relative hne habs) _
    have hdown : ∀ n, Resolves d.root.kindAt n [] (d.cwd.place ++ (Path.ofString dir).walk) q ↔
        Resolves d.root.kindAt n d.cwd.place (Path.ofString dir).walk q := fun n =>
      Resolves.down_iff (fun s hs => (hnames s hs).isName) hsteps h.isDir
    simp only [hwalk, hstart, (join_absolutePath_text hnames habs).2, hdown, hne, ne_eq,
      not_false_eq_true, true_and]

/-- The working directory has no other canonical form than its own. -/
theorem canonicalize_cwd {q : Place}
    (hq : d.canonicalize (absolutePath d.cwd.place) = .ok q) : q = d.cwd.place := by
  have hname : ∀ s ∈ d.cwd.place, IsName s := fun s hs => (hnames s hs).isName
  obtain ⟨-, n, -, hlead⟩ := canonicalize_eq_ok_iff.mp hq
  rw [ofString_absolutePath fun s hs => (hnames s hs).toIsComponent] at hlead
  -- Its names lead down to it, and to nothing else
  have hself := names_eq_self hname
  have hdown : Leads d.root.kindAt .follow 0 [] d.cwd.place ([] ++ names d.cwd.place) :=
    Plain.leads (fun s hs => .inr (hname s hs)) (by rw [hself]; exact h.isDir)
  rw [hself] at hdown
  exact hlead.leads.unique hdown

end WorkingDirectory

end Disk

end Keysmith
