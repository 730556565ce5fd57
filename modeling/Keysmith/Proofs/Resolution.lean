import Keysmith.FileSystem.Resolve
import Keysmith.Proofs.FileTree

/-!
# Where paths lead

`Leads v last n here steps q` is path resolution as a set of rules, over the view
`v : Place → Option Kind` of a tree: from the directory at `here`, the steps lead to
`q`, and `n` links are followed on the way.  `Disk.follow` computes it within its
budget of links (`follow_eq_at_iff`).

Every rule asks only for what is there, never for what is missing.  Hence what a view
leads to stays reachable in each larger view (`Leads.mono`), which is how a path is
compared before and after entries are removed or added.
-/

namespace Keysmith

open Disk (LastLink)

/-- A step that names an entry: neither `.` nor `..`, and not too long. -/
structure IsName (s : String) : Prop where
  ne_dot : s ≠ "."
  ne_dotdot : s ≠ ".."
  size_le : s.utf8ByteSize ≤ Disk.maxName

/-- The place at which a path starts. -/
def startPlace (p : Path) (here : Place) : Place := if p.absolute then [] else here

theorem startPlace_le (p : Path) (here : Place) : startPlace p here <+: here := by
  rw [startPlace]
  split
  · exact List.nil_prefix
  · exact List.prefix_rfl

/-- Steps from a place lead to another one, by following so many links. -/
inductive Leads (v : Place → Option Kind) (last : LastLink) :
    Nat → Place → List String → Place → Prop
  /-- No step is left. -/
  | done {here : Place} : Leads v last 0 here [] here
  | stay {n : Nat} {here : Place} {rest : List String} {q : Place} :
      v here = some .dir → Leads v last n here rest q → Leads v last n here ("." :: rest) q
  | up {n : Nat} {here : Place} {rest : List String} {q : Place} :
      v here = some .dir → Leads v last n here.dropLast rest q →
      Leads v last n here (".." :: rest) q
  /-- To an entry that is no link. -/
  | enter {n : Nat} {here : Place} {s : String} {k : Kind} {rest : List String} {q : Place} :
      IsName s → v (here ++ [s]) = some k → (∀ target, k ≠ .link target) →
      Leads v last n (here ++ [s]) rest q → Leads v last n here (s :: rest) q
  /-- To a link that is not followed. -/
  | kept {here : Place} {s target : String} :
      IsName s → v (here ++ [s]) = some (.link target) → last = .keep →
      Leads v last 0 here [s] (here ++ [s])
  /-- Through a link: its path takes the place of the step. -/
  | link {n : Nat} {here : Place} {s target : String} {rest : List String} {q : Place} :
      IsName s → v (here ++ [s]) = some (.link target) → (rest = [] → last = .follow) →
      Leads v last n (startPlace (Path.ofString target) here)
        ((Path.ofString target).walk ++ rest) q →
      Leads v last (n + 1) here (s :: rest) q

namespace Disk

/-! ## Spots that are places -/

@[simp] theorem ofPlace_place (p : Place) : (Spot.ofPlace p).place = p := rfl

@[simp] theorem ofPlace_removed (p : Place) : (Spot.ofPlace p).removed = 0 := rfl

@[simp] theorem up_ofPlace (p : Place) : (Spot.ofPlace p).up = Spot.ofPlace p.dropLast := rfl

@[simp] theorem down_ofPlace (p : Place) (s : String) :
    (Spot.ofPlace p).down s = Spot.ofPlace (p ++ [s]) := rfl

theorem start_ofPlace (p : Path) (here : Place) :
    start p (Spot.ofPlace here) = Spot.ofPlace (startPlace p here) := by
  cases h : p.absolute <;> simp [start, startPlace, h, Spot.root]

theorem node?_ofPlace (d : Disk) (p : Place) : d.node? (Spot.ofPlace p) = d.root.at? p := rfl

theorem entries?_ofPlace_eq_some {d : Disk} {p : Place} {es : List (String × Node)} :
    d.entries? (Spot.ofPlace p) = some es ↔ d.root.at? p = some (.dir es) := by
  rw [entries?, node?_ofPlace]
  cases d.root.at? p with
  | none => simp
  | some x => cases x <;> simp [Node.entries?]

theorem entries?_ofPlace_isNone {d : Disk} {p : Place} :
    (d.entries? (Spot.ofPlace p)).isNone = true ↔ d.root.kindAt p ≠ some .dir := by
  rw [Ne, Node.kindAt_eq_dir_iff]
  cases h : d.entries? (Spot.ofPlace p) with
  | none =>
    simp only [Option.isNone_none, true_iff]
    rintro ⟨es, hes⟩
    rw [entries?_ofPlace_eq_some.mpr hes] at h
    cases h
  | some es => simp [entries?_ofPlace_eq_some.mp h]

theorem not_isNone_entries? {d : Disk} {p : Place} :
    ¬ (d.entries? (.ofPlace p)).isNone = true ↔ d.root.kindAt p = some .dir := by
  rw [entries?_ofPlace_isNone, not_not]

/-- Looking up an entry of a directory is looking at the place of the entry. -/
theorem lookup?_ofPlace {d : Disk} {p : Place} (h : d.root.kindAt p = some .dir) (s : String) :
    d.lookup? (Spot.ofPlace p) s =
      if maxName < s.utf8ByteSize then .error .nameTooLong
      else .ok (d.root.at? (p ++ [s])) := by
  obtain ⟨es, hes⟩ := Node.kindAt_eq_dir_iff.mp h
  rw [lookup?, entries?_ofPlace_eq_some.mpr hes, Node.at?_concat, hes]
  simp [Node.child?, Node.entries?]

theorem lookup?_eq_ok_iff {d : Disk} {p : Place} (h : d.root.kindAt p = some .dir) {s : String}
    {x : Option Node} : d.lookup? (Spot.ofPlace p) s = .ok x ↔
      s.utf8ByteSize ≤ maxName ∧ d.root.at? (p ++ [s]) = x := by
  rw [lookup?_ofPlace h]
  by_cases hs : maxName < s.utf8ByteSize
  · rw [if_pos hs]
    simp [Nat.not_le.mpr hs]
  · rw [if_neg hs]
    simp [Nat.not_lt.mp hs]

/-! ## One step of the computation -/

section Step

variable {d : Disk} {here : Place} {s : String} {last : LastLink} {links : Nat}
  {rest : List String}

/-- A step by a name looks at the entry of that name. -/
theorem follow_name (hhere : d.root.kindAt here = some .dir) (hs : IsName s) :
    d.follow last links (.ofPlace here) (s :: rest) =
      match d.root.at? (here ++ [s]) with
      | none => if rest.isEmpty then .ok (.vacant (.ofPlace here) s) else .error .noEntry
      | some (.link target) =>
        if rest.isEmpty && last = .keep then .ok (.at (.ofPlace (here ++ [s])))
        else match links with
          | 0 => .error .tooManyLinks
          | links + 1 => d.follow last links (.ofPlace (startPlace (Path.ofString target) here))
              ((Path.ofString target).walk ++ rest)
      | some _ => d.follow last links (.ofPlace (here ++ [s])) rest := by
  rw [follow, if_neg (not_isNone_entries?.mpr hhere), if_neg hs.ne_dot, if_neg hs.ne_dotdot,
    lookup?_ofPlace hhere, if_neg (Nat.not_lt.mpr hs.size_le)]
  cases hat : d.root.at? (here ++ [s]) with
  | none => rfl
  | some x =>
    cases x with
    | file content mode => rfl
    | dir es => rfl
    | link target =>
      cases links with
      | zero => rfl
      | succ links => simp only [start_ofPlace, down_ofPlace]

theorem follow_stay (hhere : d.root.kindAt here = some .dir) :
    d.follow last links (.ofPlace here) ("." :: rest) =
      d.follow last links (.ofPlace here) rest := by
  rw [follow, if_neg (not_isNone_entries?.mpr hhere), if_pos rfl]

theorem follow_up (hhere : d.root.kindAt here = some .dir) :
    d.follow last links (.ofPlace here) (".." :: rest) =
      d.follow last links (.ofPlace here.dropLast) rest := by
  rw [follow, if_neg (not_isNone_entries?.mpr hhere), if_neg (by decide), if_pos rfl, up_ofPlace]

theorem follow_enter (hs : IsName s) {k : Kind} (hk : d.root.kindAt (here ++ [s]) = some k)
    (hnot : ∀ target, k ≠ .link target) :
    d.follow last links (.ofPlace here) (s :: rest) =
      d.follow last links (.ofPlace (here ++ [s])) rest := by
  obtain ⟨x, hx, rfl⟩ := Node.kindAt_eq_some_iff.mp hk
  rw [follow_name (Node.kindAt_dir_of_entry hk) hs, hx]
  cases x with
  | file content mode => rfl
  | dir es => rfl
  | link target => exact absurd rfl (hnot target)

/-- At the end, a link is kept if that is asked for. -/
theorem follow_kept (hs : IsName s) {target : String}
    (hk : d.root.kindAt (here ++ [s]) = some (.link target)) :
    d.follow .keep links (.ofPlace here) [s] = .ok (.at (.ofPlace (here ++ [s]))) := by
  rw [follow_name (Node.kindAt_dir_of_entry hk) hs, Node.kindAt_eq_link_iff.mp hk]
  rfl

theorem follow_link (hs : IsName s) {target : String}
    (hk : d.root.kindAt (here ++ [s]) = some (.link target)) (hlast : rest = [] → last = .follow) :
    d.follow last (links + 1) (.ofPlace here) (s :: rest) =
      d.follow last links (.ofPlace (startPlace (Path.ofString target) here))
        ((Path.ofString target).walk ++ rest) := by
  -- The link is not kept, even if it is the last step
  have hgo : (rest.isEmpty && decide (last = .keep)) = false := by
    cases rest with
    | nil => simp [hlast rfl]
    | cons => rfl
  rw [follow_name (Node.kindAt_dir_of_entry hk) hs, Node.kindAt_eq_link_iff.mp hk]
  simp only [hgo, Bool.false_eq_true, if_false]

end Step

/-! ## The rules and the computation -/

/-- What `follow` reaches, the rules allow within the budget. -/
private theorem leads_of_follow {d : Disk} {last : LastLink} {links : Nat} {s t : Spot}
    {here : Place} {steps : List String} (h : d.follow last links s steps = .ok (.at t))
    (hs : s = .ofPlace here) :
    ∃ n q, n ≤ links ∧ t = .ofPlace q ∧ Leads d.root.kindAt last n here steps q := by
  fun_induction Disk.follow d last links s steps generalizing here with
  | case1 links s =>
    -- No step is left
    subst hs
    cases h
    exact ⟨0, here, Nat.zero_le _, rfl, .done⟩
  | case3 links s rest hdir ih =>
    -- A step that stays
    subst hs
    rw [not_isNone_entries?] at hdir
    obtain ⟨n, q, hn, ht, hq⟩ := ih h rfl
    exact ⟨n, q, hn, ht, .stay hdir hq⟩
  | case4 links s rest hdir _ ih =>
    -- A step up
    subst hs
    rw [not_isNone_entries?] at hdir
    obtain ⟨n, q, hn, ht, hq⟩ := ih h (up_ofPlace here)
    exact ⟨n, q, hn, ht, .up hdir hq⟩
  | case8 links s step rest hdir hdot hup target hent hkeep =>
    -- A link at the end, which is kept
    subst hs
    rw [not_isNone_entries?] at hdir
    obtain ⟨hsize, hat⟩ := (lookup?_eq_ok_iff hdir).mp hent
    simp only [Bool.and_eq_true, List.isEmpty_iff, decide_eq_true_eq] at hkeep
    obtain ⟨rfl, hkeep⟩ := hkeep
    cases h
    exact ⟨0, here ++ [step], Nat.zero_le _, rfl,
      .kept ⟨hdot, hup, hsize⟩ (Node.kindAt_eq_some_iff.mpr ⟨_, hat, rfl⟩) hkeep⟩
  | case10 s step rest hdir hdot hup target hent hkeep links p =>
    -- A link that is followed, which uses up one of the budget
    rename_i ih
    subst hs
    rw [not_isNone_entries?] at hdir
    obtain ⟨hsize, hat⟩ := (lookup?_eq_ok_iff hdir).mp hent
    obtain ⟨n, q, hn, ht, hq⟩ := ih h (start_ofPlace p here)
    refine ⟨n + 1, q, Nat.succ_le_succ hn, ht, .link ⟨hdot, hup, hsize⟩
      (Node.kindAt_eq_some_iff.mpr ⟨_, hat, rfl⟩) ?_ hq⟩
    rintro rfl
    cases last with
    | follow => rfl
    | keep => simp at hkeep
  | case11 links s step rest hdir hdot hup x hlink hent ih =>
    -- An entry that is no link
    subst hs
    rw [not_isNone_entries?] at hdir
    obtain ⟨hsize, hat⟩ := (lookup?_eq_ok_iff hdir).mp hent
    obtain ⟨n, q, hn, ht, hq⟩ := ih h (down_ofPlace here step)
    refine ⟨n, q, hn, ht, .enter ⟨hdot, hup, hsize⟩
      (Node.kindAt_eq_some_iff.mpr ⟨x, hat, rfl⟩) ?_ hq⟩
    intro target hk
    cases x with
    | link t => exact hlink t rfl
    | file content mode => cases hk
    | dir es => cases hk
  | _ =>
    -- All other ends are failures, or a name that is missing
    cases h

/-- What the rules allow, `follow` reaches within each budget that suffices. -/
private theorem follow_of_leads {d : Disk} {last : LastLink} {n links : Nat} {here q : Place}
    {steps : List String} (h : Leads d.root.kindAt last n here steps q) (hn : n ≤ links) :
    d.follow last links (.ofPlace here) steps = .ok (.at (.ofPlace q)) := by
  induction h generalizing links with
  | done => rw [follow]
  | stay hdir _ ih => rw [follow_stay hdir, ih hn]
  | up hdir _ ih => rw [follow_up hdir, ih hn]
  | enter hs hk hlink _ ih => rw [follow_enter hs hk hlink, ih hn]
  | kept hs hk hkeep =>
    subst hkeep
    exact follow_kept hs hk
  | link hs hk hlast _ ih =>
    obtain ⟨links, rfl⟩ := Nat.exists_eq_add_of_le' hn
    rw [← Nat.add_assoc, follow_link hs hk hlast]
    exact ih (Nat.le_add_left _ links)

/-- Further steps are followed from where the first ones lead. -/
theorem follow_append_of_leads {d : Disk} {last : LastLink} {n : Nat} {here q : Place}
    {steps rest : List String} (h : Leads d.root.kindAt .follow n here steps q) (hrest : rest ≠ [])
    (links : Nat) :
    d.follow last (links + n) (.ofPlace here) (steps ++ rest) =
      d.follow last links (.ofPlace q) rest := by
  induction h with
  | done => rfl
  | stay hdir _ ih => rw [List.cons_append, follow_stay hdir, ih]
  | up hdir _ ih => rw [List.cons_append, follow_up hdir, ih]
  | enter hs hk hlink _ ih => rw [List.cons_append, follow_enter hs hk hlink, ih]
  | kept _ _ hkeep => cases hkeep
  | link hs hk _ _ ih =>
    -- Steps come after the link, so it is not the last one
    rw [List.cons_append, ← Nat.add_assoc, follow_link hs hk fun hnil =>
      absurd hnil (List.append_ne_nil_of_right_ne_nil _ hrest), ← List.append_assoc, ih]

/-- From a place, `follow` reaches what the rules allow within its budget of links. -/
theorem follow_eq_at_iff {d : Disk} {last : LastLink} {links : Nat} {here : Place}
    {steps : List String} {t : Spot} :
    d.follow last links (.ofPlace here) steps = .ok (.at t) ↔
      ∃ n q, n ≤ links ∧ t = .ofPlace q ∧ Leads d.root.kindAt last n here steps q := by
  constructor
  · intro h
    exact leads_of_follow h rfl
  · rintro ⟨n, q, hn, rfl, hq⟩
    exact follow_of_leads hq hn

end Disk

/-! ## Properties of the rules -/

namespace Leads

variable {v w : Place → Option Kind} {last : LastLink} {n m : Nat} {here p q : Place}
  {steps : List String}

/-- What a view leads to stays reachable in a view that shows at least the same directories
    and links, and some file for every file. -/
theorem of_shape (h : Leads v last n here steps q)
    (hdir : ∀ p, v p = some .dir → w p = some .dir)
    (hlink : ∀ p target, v p = some (.link target) → w p = some (.link target))
    (hfile : ∀ p content mode, v p = some (.file content mode) →
      ∃ content' mode', w p = some (.file content' mode')) : Leads w last n here steps q := by
  induction h with
  | done => exact .done
  | stay hk _ ih => exact .stay (hdir _ hk) ih
  | up hk _ ih => exact .up (hdir _ hk) ih
  | @enter n here s k rest q hs hk hnot _ ih =>
    cases k with
    | file content mode =>
      obtain ⟨content', mode', hw⟩ := hfile _ content mode hk
      exact .enter hs hw (by simp) ih
    | link target => exact absurd rfl (hnot target)
    | dir => exact .enter hs (hdir _ hk) (by simp) ih
  | kept hs hk hkeep => exact .kept hs (hlink _ _ hk) hkeep
  | link hs hk hlast _ ih => exact .link hs (hlink _ _ hk) hlast ih

/-- What a view leads to stays reachable in a view that shows more. -/
theorem mono (h : Leads v last n here steps q) (hv : ∀ p k, v p = some k → w p = some k) :
    Leads w last n here steps q :=
  h.of_shape (fun p => hv p _) (fun p target => hv p (.link target))
    fun p content mode hk => ⟨content, mode, hv p _ hk⟩

theorem of_stay {rest : List String} (h : Leads v last n here ("." :: rest) q) :
    v here = some .dir ∧ Leads v last n here rest q := by
  generalize hsteps : "." :: rest = steps at h
  cases h with
  | done => cases hsteps
  | stay hdir h => exact ⟨hdir, (List.cons.inj hsteps).2 ▸ h⟩
  | up => exact absurd (List.cons.inj hsteps).1 (by decide)
  | enter hs => exact absurd (List.cons.inj hsteps).1.symm hs.ne_dot
  | kept hs => exact absurd (List.cons.inj hsteps).1.symm hs.ne_dot
  | link hs => exact absurd (List.cons.inj hsteps).1.symm hs.ne_dot

theorem of_up {rest : List String} (h : Leads v last n here (".." :: rest) q) :
    v here = some .dir ∧ Leads v last n here.dropLast rest q := by
  generalize hsteps : ".." :: rest = steps at h
  cases h with
  | done => cases hsteps
  | stay => exact absurd (List.cons.inj hsteps).1 (by decide)
  | up hdir h => exact ⟨hdir, (List.cons.inj hsteps).2 ▸ h⟩
  | enter hs => exact absurd (List.cons.inj hsteps).1.symm hs.ne_dotdot
  | kept hs => exact absurd (List.cons.inj hsteps).1.symm hs.ne_dotdot
  | link hs => exact absurd (List.cons.inj hsteps).1.symm hs.ne_dotdot

/-- Steps lead to one place only. -/
theorem unique (h : Leads v last n here steps p) (h' : Leads v last m here steps q) :
    p = q := by
  induction h generalizing m with
  | done =>
    cases h'
    rfl
  | stay _ _ ih => exact ih h'.of_stay.2
  | up _ _ ih => exact ih h'.of_up.2
  | enter hs hk hlink _ ih =>
    cases h' with
    | stay => exact absurd rfl hs.ne_dot
    | up => exact absurd rfl hs.ne_dotdot
    | enter _ _ _ h' => exact ih h'
    | kept _ hk' => exact absurd (Option.some.inj (hk.symm.trans hk')) (hlink _)
    | link _ hk' => exact absurd (Option.some.inj (hk.symm.trans hk')) (hlink _)
  | kept hs hk hkeep =>
    cases h' with
    | stay => exact absurd rfl hs.ne_dot
    | up => exact absurd rfl hs.ne_dotdot
    | enter _ hk' hlink => exact absurd (Option.some.inj (hk'.symm.trans hk)) (hlink _)
    | kept => rfl
    | link _ _ hlast => cases hkeep.symm.trans (hlast rfl)
  | link hs hk hlast _ ih =>
    cases h' with
    | stay => exact absurd rfl hs.ne_dot
    | up => exact absurd rfl hs.ne_dotdot
    | enter _ hk' hlink => exact absurd (Option.some.inj (hk'.symm.trans hk)) (hlink _)
    | kept _ _ hkeep => cases hkeep.symm.trans (hlast rfl)
    | link _ hk' _ h' =>
      cases Option.some.inj (hk.symm.trans hk')
      exact ih h'

/-- Steps after steps. -/
theorem append {a b : List String} (ha : Leads v .follow n here a p)
    (hb : Leads v last m p b q) (hlast : b = [] → last = .follow) :
    Leads v last (n + m) here (a ++ b) q := by
  induction ha with
  | done => simpa using hb
  | stay hdir _ ih => exact .stay hdir (ih hb)
  | up hdir _ ih => exact .up hdir (ih hb)
  | enter hs hk hlink _ ih => exact .enter hs hk hlink (ih hb)
  | kept _ _ hkeep => cases hkeep
  | @link n _ _ _ rest _ hs hk _ _ ih =>
    have h := ih hb
    rw [List.append_assoc] at h
    rw [Nat.add_right_comm, List.cons_append]
    exact .link hs hk (fun hnil => hlast (List.append_eq_nil_iff.mp hnil).2) h

/-- Steps that lead somewhere can be gone in two parts, and the first part follows
    every link. -/
theorem split {a b : List String} (h : Leads v last n here (a ++ b) q) (hne : b ≠ []) :
    ∃ n₁ n₂ mid, n₁ + n₂ = n ∧ Leads v .follow n₁ here a mid ∧ Leads v last n₂ mid b q := by
  generalize hsteps : a ++ b = steps at h
  -- In each case either the first part is over, or the step belongs to it
  induction h generalizing a with
  | @done here =>
    exact absurd (List.append_eq_nil_iff.mp hsteps).2 hne
  | @stay n here rest q hdir h ih =>
    cases a with
    | nil =>
      rw [List.nil_append] at hsteps
      exact ⟨0, n, here, Nat.zero_add n, .done, hsteps ▸ .stay hdir h⟩
    | cons s a =>
      obtain ⟨rfl, hrest⟩ := List.cons.inj hsteps
      obtain ⟨n₁, n₂, mid, hsum, ha, hb⟩ := ih hrest
      exact ⟨n₁, n₂, mid, hsum, .stay hdir ha, hb⟩
  | @up n here rest q hdir h ih =>
    cases a with
    | nil =>
      rw [List.nil_append] at hsteps
      exact ⟨0, n, here, Nat.zero_add n, .done, hsteps ▸ .up hdir h⟩
    | cons s a =>
      obtain ⟨rfl, hrest⟩ := List.cons.inj hsteps
      obtain ⟨n₁, n₂, mid, hsum, ha, hb⟩ := ih hrest
      exact ⟨n₁, n₂, mid, hsum, .up hdir ha, hb⟩
  | @enter n here s k rest q hs hk hlink h ih =>
    cases a with
    | nil =>
      rw [List.nil_append] at hsteps
      exact ⟨0, n, here, Nat.zero_add n, .done, hsteps ▸ .enter hs hk hlink h⟩
    | cons s a =>
      obtain ⟨rfl, hrest⟩ := List.cons.inj hsteps
      obtain ⟨n₁, n₂, mid, hsum, ha, hb⟩ := ih hrest
      exact ⟨n₁, n₂, mid, hsum, .enter hs hk hlink ha, hb⟩
  | @kept here s target hs hk hkeep =>
    cases a with
    | nil =>
      rw [List.nil_append] at hsteps
      exact ⟨0, 0, here, rfl, .done, hsteps ▸ .kept hs hk hkeep⟩
    | cons s a =>
      obtain ⟨rfl, hrest⟩ := List.cons.inj hsteps
      exact absurd (List.append_eq_nil_iff.mp hrest).2 hne
  | @link n here s target rest q hs hk hlast h ih =>
    cases a with
    | nil =>
      rw [List.nil_append] at hsteps
      exact ⟨0, n + 1, here, Nat.zero_add _, .done, hsteps ▸ .link hs hk hlast h⟩
    | cons s a =>
      obtain ⟨rfl, rfl⟩ := List.cons.inj hsteps
      -- The steps of the link's path go before those left of the first part
      obtain ⟨n₁, n₂, mid, rfl, ha, hb⟩ := ih (List.append_assoc _ _ _)
      exact ⟨n₁ + 1, n₂, mid, Nat.add_right_comm n₁ 1 n₂, .link hs hk (fun _ => rfl) ha, hb⟩

/-- Where the last step is no link, keeping a last link makes no difference. -/
theorem follow_of_keep (h : Leads v .keep n here steps q)
    (hq : ∀ target, v q ≠ some (.link target)) : Leads v .follow n here steps q := by
  induction h with
  | done => exact .done
  | stay hdir _ ih => exact .stay hdir (ih hq)
  | up hdir _ ih => exact .up hdir (ih hq)
  | enter hs hk hlink _ ih => exact .enter hs hk hlink (ih hq)
  | kept _ hk => exact absurd hk (hq _)
  | link hs hk _ _ ih => exact .link hs hk (fun _ => rfl) (ih hq)

/-- Steps that only stay can be left out. -/
theorem filter_stay (h : Leads v .follow n here steps q) :
    Leads v .follow n here (steps.filter (· != ".")) q := by
  induction steps generalizing n here with
  | nil => exact h
  | cons s steps ih =>
    by_cases hs : s = "."
    · subst hs
      rw [List.filter_cons_of_neg (by simp)]
      exact ih h.of_stay.2
    · rw [List.filter_cons_of_pos (by simpa using hs)]
      cases steps with
      | nil => exact h
      | cons t steps =>
        -- The first step by itself, then the others without those that stay
        obtain ⟨n₁, n₂, mid, rfl, hfirst, hrest⟩ := h.split (a := [s]) (List.cons_ne_nil t steps)
        exact hfirst.append (ih hrest) fun _ => rfl

/-- Where steps are left to go, there is a directory to go them in. -/
theorem dir_of_ne_nil {t : Node} (h : Leads t.kindAt last n here steps q) (hne : steps ≠ []) :
    t.kindAt here = some .dir := by
  cases h with
  | done => exact absurd rfl hne
  | stay hdir => exact hdir
  | up hdir => exact hdir
  | enter _ hk => exact Node.kindAt_dir_of_entry hk
  | kept _ hk => exact Node.kindAt_dir_of_entry hk
  | link _ hk => exact Node.kindAt_dir_of_entry hk

/-- Steps that follow all links lead from something that is there, and is no link, to something of
    that kind. -/
theorem not_link {t : Node} (h : Leads t.kindAt .follow n here steps q)
    (hhere : t.kindAt here ≠ none ∧ ∀ target, t.kindAt here ≠ some (.link target)) :
    t.kindAt q ≠ none ∧ ∀ target, t.kindAt q ≠ some (.link target) := by
  have hdir : ∀ {p : Place}, t.kindAt p = some .dir →
      t.kindAt p ≠ none ∧ ∀ target, t.kindAt p ≠ some (.link target) := fun hp => by simp [hp]
  generalize hlast : LastLink.follow = last at h
  induction h with
  | done => exact hhere
  | stay _ _ ih => exact ih hhere
  | @up _ here _ _ hup _ ih => exact ih (hdir (Node.kindAt_dir_above here.dropLast_prefix hup))
  | enter _ hk hnot _ ih =>
    rw [hk] at ih
    exact ih ⟨by simp, fun target htarget => hnot target (Option.some.inj htarget)⟩
  | kept _ _ hkeep =>
    subst hlast
    cases hkeep
  | @link _ here _ _ _ _ _ hk _ _ ih =>
    have habove := Node.kindAt_dir_of_entry hk
    exact ih (hdir (Node.kindAt_dir_above (startPlace_le _ here) habove))

/-- Steps that name nothing lead up, to a directory that encloses the first one. -/
theorem of_navigation (last : LastLink) {t : Node} (hhere : t.kindAt here = some .dir)
    (hsteps : ∀ s ∈ steps, s = "." ∨ s = "..") :
    ∃ q, Leads t.kindAt last 0 here steps q ∧ q <+: here ∧ t.kindAt q = some .dir := by
  induction steps generalizing here with
  | nil => exact ⟨here, .done, List.prefix_rfl, hhere⟩
  | cons s steps ih =>
    have hrest : ∀ s ∈ steps, s = "." ∨ s = ".." :=
      fun s hs => hsteps s (List.mem_cons_of_mem _ hs)
    rcases hsteps s List.mem_cons_self with rfl | rfl
    · obtain ⟨q, hq, hle, hdir⟩ := ih hhere hrest
      exact ⟨q, .stay hhere hq, hle, hdir⟩
    · have hle : here.dropLast <+: here := here.dropLast_prefix
      obtain ⟨q, hq, hle', hdir⟩ := ih (Node.kindAt_dir_above hle hhere) hrest
      exact ⟨q, .up hhere hq, hle'.trans hle, hdir⟩

/-- Down to a directory by names, and by as many `..` up again. -/
theorem down_up {t : Node} {names : List String} (hnames : ∀ s ∈ names, IsName s)
    (hdir : t.kindAt (here ++ names) = some .dir) :
    Leads t.kindAt last 0 here (names ++ List.replicate names.length "..") here := by
  induction names generalizing here last with
  | nil => exact .done
  | cons s names ih =>
    rw [List.append_cons] at hdir
    have hnext : t.kindAt (here ++ [s]) = some .dir :=
      Node.kindAt_dir_above (List.prefix_append _ names) hdir
    have hrest : Leads t.kindAt .follow 0 (here ++ [s])
        (names ++ List.replicate names.length "..") (here ++ [s]) :=
      ih (fun t ht => hnames t (List.mem_cons_of_mem _ ht)) hdir
    have hup : Leads t.kindAt last 0 (here ++ [s]) [".."] here :=
      .up hnext (by rw [List.dropLast_concat]; exact .done)
    rw [List.cons_append, List.length_cons, List.replicate_succ', ← List.append_assoc]
    exact .enter (hnames s List.mem_cons_self) hnext (by simp) (hrest.append hup (by simp))

end Leads

end Keysmith
