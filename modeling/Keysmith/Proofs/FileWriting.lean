import Keysmith.FileSystem.Entries
import Keysmith.Proofs.DiskOperations

/-!
# Writing files

Writing a file puts a file where the path leads and changes nothing else.  A path that
breaks off at its last name leads to the file that is then made, through the same links.

* `breaksOff_of_follow`   what is where a path breaks off
* `openForWriting_cases`  a file is opened that is there, or one is made
* `Opening.leads`         in either case the path leads to it then
* `write_creates`         what writing does to the view of the tree
* `write_of_isFree`       where the name of a path is free, a file of that name is made
-/

namespace Keysmith.Disk

/-- Two disks look the same. -/
structure Alike (d d' : Disk) : Prop where
  cwd_eq : d'.cwd = d.cwd
  kindAt_eq : ∀ q, d'.root.kindAt q = d.root.kindAt q

theorem Alike.refl (d : Disk) : Alike d d := ⟨rfl, fun _ => rfl⟩

/-- A disk with a file where a path leads, and otherwise as another one. -/
structure Creates (path : String) (d d' : Disk) : Prop where
  cwd_eq : d'.cwd = d.cwd
  file : ∃ place content mode, d'.Names .follow path place ∧
    ∀ q, d'.root.kindAt q = if q = place then some (.file content mode) else d.root.kindAt q

/-! ## Paths that break off at their last name -/

/-- A path breaks off at a place: a directory that lacks the last name.  In each view that
    shows what is there and something of that name besides, the path leads to it. -/
structure BreaksOff (d : Disk) (last : LastLink) (links : Nat) (here : Place)
    (steps : List String) (q : Place) (name : String) : Prop where
  isDir : d.root.kindAt q = some .dir
  free : d.root.kindAt (q ++ [name]) = none
  leads : ∀ (w : Place → Option Kind) (k : Kind), (∀ p k, d.root.kindAt p = some k → w p = some k) →
    w (q ++ [name]) = some k → (∀ target, k ≠ .link target) →
    ∃ n, n ≤ links ∧ Leads w last n here steps (q ++ [name])

theorem breaksOff_of_follow {d : Disk} {last : LastLink} {links : Nat} {here : Place}
    {steps : List String} {t : Spot} {name : String}
    (h : d.follow last links (.ofPlace here) steps = .ok (.vacant t name)) :
    ∃ q, t = .ofPlace q ∧ d.BreaksOff last links here steps q name := by
  generalize hs : Spot.ofPlace here = s at h
  fun_induction Disk.follow d last links s steps generalizing here with
  | case3 links s rest hdir ih =>
    -- A step that stays
    subst hs
    rw [not_isNone_entries?] at hdir
    obtain ⟨q, ht, hq⟩ := ih rfl h
    refine ⟨q, ht, hq.isDir, hq.free, fun w k hw hk hnot => ?_⟩
    obtain ⟨n, hn, hlead⟩ := hq.leads w k hw hk hnot
    exact ⟨n, hn, .stay (hw _ _ hdir) hlead⟩
  | case4 links s rest hdir _ ih =>
    -- A step up
    subst hs
    rw [not_isNone_entries?] at hdir
    obtain ⟨q, ht, hq⟩ := ih (up_ofPlace here).symm h
    refine ⟨q, ht, hq.isDir, hq.free, fun w k hw hk hnot => ?_⟩
    obtain ⟨n, hn, hlead⟩ := hq.leads w k hw hk hnot
    exact ⟨n, hn, .up (hw _ _ hdir) hlead⟩
  | case6 links s step rest hdir hdot hup hent hrest =>
    -- The last name
    subst hs
    rw [not_isNone_entries?] at hdir
    obtain ⟨hsize, hat⟩ := (lookup?_eq_ok_iff hdir).mp hent
    obtain rfl := List.isEmpty_iff.mp hrest
    cases h
    refine ⟨here, rfl, hdir, Node.kindAt_eq_none_iff.mpr hat, fun w k hw hk hnot => ?_⟩
    exact ⟨0, Nat.zero_le _, .enter ⟨hdot, hup, hsize⟩ hk hnot .done⟩
  | case10 s step rest hdir hdot hup target hent hkeep links p =>
    -- A link that is followed, which uses up one of the budget
    rename_i ih
    subst hs
    rw [not_isNone_entries?] at hdir
    obtain ⟨hsize, hat⟩ := (lookup?_eq_ok_iff hdir).mp hent
    obtain ⟨q, ht, hq⟩ := ih (start_ofPlace p here).symm h
    refine ⟨q, ht, hq.isDir, hq.free, fun w k hw hk hnot => ?_⟩
    obtain ⟨n, hn, hlead⟩ := hq.leads w k hw hk hnot
    have hlink := hw _ _ (Node.kindAt_eq_some_iff.mpr ⟨_, hat, rfl⟩)
    refine ⟨n + 1, Nat.succ_le_succ hn, .link ⟨hdot, hup, hsize⟩ hlink ?_ hlead⟩
    rintro rfl
    cases last with
    | follow => rfl
    | keep => simp at hkeep
  | case11 links s step rest hdir hdot hup x hlink hent ih =>
    -- An entry that is no link
    subst hs
    rw [not_isNone_entries?] at hdir
    obtain ⟨hsize, hat⟩ := (lookup?_eq_ok_iff hdir).mp hent
    obtain ⟨q, ht, hq⟩ := ih (down_ofPlace here step).symm h
    refine ⟨q, ht, hq.isDir, hq.free, fun w k hw hk hnot => ?_⟩
    obtain ⟨n, hn, hlead⟩ := hq.leads w k hw hk hnot
    refine ⟨n, hn, .enter ⟨hdot, hup, hsize⟩
      (hw _ _ (Node.kindAt_eq_some_iff.mpr ⟨x, hat, rfl⟩)) ?_ hlead⟩
    intro target hk'
    cases x with
    | link t => exact hlink t rfl
    | file content mode => cases hk'
    | dir es => cases hk'
  | _ =>
    -- All other ends are failures, or something that exists
    cases h

/-- Where a path breaks off, a new file is what the path leads to, and nothing else has changed. -/
theorem BreaksOff.insert {d : Disk} {links : Nat} {here : Place} {steps : List String} {q : Place}
    {name : String} (h : d.BreaksOff .follow links here steps q name) (mode : Mode) :
    let made := d.insert q name (.file [] mode)
    (∀ r, made.root.kindAt r =
      if r = q ++ [name] then some (.file [] mode) else d.root.kindAt r) ∧
    ∃ n, n ≤ links ∧ Leads made.root.kindAt .follow n here steps (q ++ [name]) := by
  intro made
  have hkind : ∀ r, made.root.kindAt r =
      if r = q ++ [name] then some (.file [] mode) else d.root.kindAt r :=
    Node.kindAt_insert_leaf (fun _ => rfl) h.isDir h.free
  -- What was there before is there still, because the new place was free
  have hkept : ∀ r k, d.root.kindAt r = some k → made.root.kindAt r = some k := by
    intro r k hr
    rwa [hkind, if_neg fun heq => by rw [heq, h.free] at hr; cases hr]
  exact ⟨hkind, h.leads _ _ hkept ((hkind _).trans (if_pos rfl)) (by simp)⟩

/-- Where the name of a path is free, the path breaks off. -/
theorem reachPath_of_isFree {d : Disk} (h : d.Standing) {last : LastLink} {p : Path} {q : Place}
    {name : String} (hslash : p.slash = false) (hfree : d.IsFree p q name) :
    d.reachPath last p = .ok (.vacant (.ofPlace q) name) := by
  obtain ⟨hdir, n, hn, hlead⟩ := hfree.above
  obtain ⟨links, hlinks⟩ := Nat.exists_eq_add_of_le' hn
  have hwalk : p.walk = p.steps.dropLast ++ [name] := by
    rw [Path.walk, hslash, if_neg Bool.false_ne_true,
      List.dropLast_append_getLast? name hfree.last]
  rw [reachPath, h.start_eq, hwalk, hlinks,
    follow_append_of_leads hlead (List.cons_ne_nil _ _), follow_name hdir hfree.name,
    Node.kindAt_eq_none_iff.mp hfree.free]
  rfl

/-! ## Opening and writing -/

/-- A file opened for writing: one that the path leads to, or a new one where the path breaks
    off. -/
inductive Opening (d : Disk) (mode : Mode) (p : Path) : Disk × Place → Prop
  | found {q : Place} {content : Bytes} {held : Mode} :
      d.PathLeads .follow p q → d.root.kindAt q = some (.file content held) →
      Opening d mode p (d, q)
  | made {q : Place} {name : String} :
      d.BreaksOff .follow maxLinks (startPlace p d.cwd.place) p.walk q name →
      Opening d mode p (d.insert q name (.file [] mode), q ++ [name])

theorem openForWriting_cases {d : Disk} (h : d.Standing) {mode : Mode} {path : String}
    {o : Disk × Place} (ho : d.openForWriting mode path = .ok o) :
    path ≠ "" ∧ '\x00' ∉ path.toList ∧ Opening d mode (Path.ofString path) o := by
  rw [openForWriting] at ho
  cases hp : pathOf path with
  | error e => simp [hp, bind, Except.bind] at ho
  | ok p =>
    obtain ⟨hne, hnul, rfl⟩ := pathOf_eq_ok hp
    refine ⟨hne, hnul, ?_⟩
    simp only [hp, bind, Except.bind] at ho
    split at ho
    · -- A path that asks for a directory opens no file
      split at ho <;> cases ho
    · rw [reachPath, h.start_eq] at ho
      cases hr : d.follow .follow maxLinks (.ofPlace (startPlace (Path.ofString path) d.cwd.place))
          (Path.ofString path).walk with
      | error e => simp [hr, Except.mapError] at ho
      | ok r =>
        simp only [hr, Except.mapError] at ho
        cases r with
        | vacant t name =>
          obtain ⟨q, rfl, hq⟩ := breaksOff_of_follow hr
          cases ho
          exact .made hq
        | «at» t =>
          obtain ⟨n, q, hn, rfl, hq⟩ := follow_eq_at_iff.mp hr
          simp only [node?_ofPlace] at ho
          split at ho
          · rename_i content held hat
            split at ho
            · cases ho
              exact .found ⟨n, hn, hq⟩ (Node.kindAt_eq_some_iff.mpr ⟨_, hat, rfl⟩)
            · cases ho
          · cases ho

/-- An opened file is where the path leads by then, and nothing else has changed. -/
theorem Opening.leads {d : Disk} {mode : Mode} {p : Path} {o : Disk × Place}
    (h : Opening d mode p o) : o.1.cwd = d.cwd ∧ o.1.PathLeads .follow p o.2 ∧
      ∃ content held, ∀ q, o.1.root.kindAt q =
        if q = o.2 then some (.file content held) else d.root.kindAt q := by
  cases h with
  | @found q content held hlead hk =>
    refine ⟨rfl, hlead, content, held, fun r => ?_⟩
    split
    · rename_i heq
      exact heq ▸ hk
    · rfl
  | made hq =>
    obtain ⟨hkind, hlead⟩ := hq.insert mode
    exact ⟨rfl, hlead, [], mode, hkind⟩

/-- Writing a file is opening it and giving it another content. -/
theorem write_cases {d d' : Disk} (h : d.Standing) {path : String} {content : Bytes}
    (hw : d.write path content = .ok d') :
    ∃ o, path ≠ "" ∧ '\x00' ∉ path.toList ∧ Opening d .data (Path.ofString path) o ∧
      d' = o.1.setContent o.2 fun _ => content := by
  rw [write] at hw
  cases ho : d.openForWriting .data path with
  | error e => simp [ho, bind, Except.bind] at hw
  | ok o =>
    simp only [ho, bind, Except.bind, Except.ok.injEq] at hw
    obtain ⟨hne, hnul, hopening⟩ := openForWriting_cases h ho
    exact ⟨o, hne, hnul, hopening, hw.symm⟩

/-- Where the name of a path is free, writing makes a file of that name. -/
theorem write_of_isFree {d : Disk} (h : d.Standing) {path : String} {p : Path} {q : Place}
    {name : String} (hpath : pathOf path = .ok p) (hslash : p.slash = false)
    (hfree : d.IsFree p q name) (content : Bytes) :
    d.write path content = .ok ((d.insert q name (.file [] .data)).setContent (q ++ [name])
      fun _ => content) := by
  have hwalk : p.walk = p.steps := by rw [Path.walk, hslash, if_neg Bool.false_ne_true]
  have hkeep : d.reachPath .keep p = _ := reachPath_of_isFree h hslash hfree
  rw [reachPath, hwalk] at hkeep
  -- The path ends in no link that could be replaced
  have hlast : d.withoutLastLinks maxLinks d.cwd p = (d.cwd, p) := by
    rw [maxLinks, withoutLastLinks, hslash, if_neg Bool.false_ne_true]
    simp only [hkeep]
  simp only [write, openForWriting, hpath, bind, Except.bind, hlast, hslash,
    if_neg Bool.false_ne_true, reachPath_of_isFree h hslash hfree, Except.mapError]
  rfl

/-- Another content changes no other place. -/
theorem kindAt_setContent {d : Disk} {place : Place} {content : Bytes} {mode : Mode}
    (h : d.root.kindAt place = some (.file content mode)) (change : Bytes → Bytes) (q : Place) :
    (d.setContent place change).root.kindAt q =
      if q = place then some (.file (change content) mode) else d.root.kindAt q :=
  Node.kindAt_modify_file h rfl q

/-- Where an opened file is given its content, nothing else changes. -/
theorem Opening.kindAt_setContent {d : Disk} {mode : Mode} {p : Path} {o : Disk × Place}
    (h : Opening d mode p o) (content : Bytes) :
    ∃ held, ∀ q, (o.1.setContent o.2 fun _ => content).root.kindAt q =
      if q = o.2 then some (.file content held) else d.root.kindAt q := by
  obtain ⟨-, -, old, held, hkind⟩ := h.leads
  refine ⟨held, fun q => ?_⟩
  rw [Disk.kindAt_setContent ((hkind o.2).trans (if_pos rfl)), hkind]
  split
  · rfl
  · rfl

/-- Writing a file puts a file where the path leads, and nothing else changes. -/
theorem write_creates {d d' : Disk} (h : d.Standing) {path : String} {content : Bytes}
    (hw : d.write path content = .ok d') : Creates path d d' := by
  obtain ⟨⟨d₁, place⟩, hne, hnul, hopening, rfl⟩ := write_cases h hw
  obtain ⟨held, hkind⟩ := hopening.kindAt_setContent content
  obtain ⟨hcwd, ⟨n, hn, hlead⟩, old, _, hkind₁⟩ := hopening.leads
  refine ⟨hcwd, place, content, held, ⟨hne, hnul, n, hn, hlead.of_shape ?_ ?_ ?_⟩, hkind⟩
  -- A file was there by then, so the path meets the same directories and links
  · intro p hp
    rw [hkind₁] at hp
    split at hp
    · cases hp
    · rename_i hne
      rwa [hkind, if_neg hne]
  · intro p target hp
    rw [hkind₁] at hp
    split at hp
    · cases hp
    · rename_i hne
      rwa [hkind, if_neg hne]
  · intro p content' mode' hp
    rw [hkind₁] at hp
    rw [hkind]
    split
    · exact ⟨_, _, rfl⟩
    · rename_i hne
      rw [if_neg hne] at hp
      exact ⟨_, _, hp⟩

end Keysmith.Disk
