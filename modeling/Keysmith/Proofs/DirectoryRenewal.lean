import Keysmith.Proofs.OutputDir

/-!
# Renewing a directory by its name

A path of one component names an entry of the working directory and nothing else.  By such
a path the output directory is emptied completely, or nothing is changed at all:

* `reset_eq_ok`     where the name can be taken by a directory, an empty directory is put in
  place of whatever had the name
* `reset_eq_error`  everywhere else, the disk is left as it was
-/

namespace Keysmith

/-! ## Paths of one and two components -/

/-- Steps that begin with a component go on from the entry, unless that is a link. -/
theorem Leads.of_component {v : Place → Option Kind} {last : Disk.LastLink} {n : Nat}
    {here q : Place} {s : String} {rest : List String} (hs : IsComponent s)
    (h : Leads v last n here (s :: rest) q)
    (hnot : ∀ target, v (here ++ [s]) ≠ some (.link target)) :
    Leads v last n (here ++ [s]) rest q := by
  cases h with
  | stay => exact absurd rfl hs.ne_dot
  | up => exact absurd rfl hs.ne_dotdot
  | enter _ _ _ hrest => exact hrest
  | kept _ hk => exact absurd hk (hnot _)
  | link _ hk => exact absurd hk (hnot _)

namespace Disk

/-- A file made by the path of two steps is the entry of a directory, if neither of the two
    was a link before. -/
theorem PathLeads.of_components {d d' : Disk} {q : Place} {dir s : String} {content : Bytes}
    {mode : Mode} (hdir : IsComponent dir) (hs : IsComponent s)
    (h : d'.PathLeads .follow (Path.ofString (Path.join dir s)) q)
    (hkind : ∀ r, d'.root.kindAt r =
      if r = q then some (.file content mode) else d.root.kindAt r)
    (hdirNot : ∀ target, d.root.kindAt (d'.cwd.place ++ [dir]) ≠ some (.link target))
    (hnot : ∀ target, d.root.kindAt (d'.cwd.place ++ [dir] ++ [s]) ≠ some (.link target)) :
    q = d'.cwd.place ++ [dir] ++ [s] := by
  obtain ⟨n, -, hlead⟩ := h
  rw [hdir.ofString_join hs] at hlead
  have hdirNot' : ∀ target, d'.root.kindAt (d'.cwd.place ++ [dir]) ≠ some (.link target) := by
    intro target
    rw [hkind]
    split
    · simp
    · exact hdirNot target
  have hnot' : ∀ target,
      d'.root.kindAt (d'.cwd.place ++ [dir] ++ [s]) ≠ some (.link target) := by
    intro target
    rw [hkind]
    split
    · simp
    · exact hnot target
  cases (Leads.of_component hdir hlead hdirNot').of_component hs hnot'
  rfl

theorem pathOf_entryName {s : String} (h : IsEntryName s) :
    pathOf s = .ok ⟨false, [s], false⟩ := by
  have hsize : s.utf8ByteSize < pathLimit := Nat.lt_of_le_of_lt h.size_le (by decide)
  rw [pathOf_of_fits h.ne_empty h.no_nul hsize, h.ofString_eq]

/-! ## Looking at the entry -/

/-- A path of one component is looked up in the working directory. -/
theorem findPath_component {d : Disk} (h : d.Standing) {s : String} (hs : IsComponent s) :
    d.findPath .keep ⟨false, [s], false⟩ =
      if maxName < s.utf8ByteSize then .error .nameTooLong
      else if d.root.kindAt (d.cwd.place ++ [s]) = none then .error .noEntry
      else .ok (.ofPlace (d.cwd.place ++ [s])) := by
  have hsome := not_isNone_entries?.mpr h.isDir
  rw [findPath, reachPath, h.start_eq, startPlace, if_neg (by simp), Path.walk, if_neg (by simp),
    follow, if_neg hsome, if_neg hs.ne_dot, if_neg hs.ne_dotdot, lookup?_ofPlace h.isDir]
  by_cases hsize : maxName < s.utf8ByteSize
  · rw [if_pos hsize, if_pos hsize]
  · rw [if_neg hsize, if_neg hsize]
    cases hat : d.root.at? (d.cwd.place ++ [s]) with
    | none => simp [Node.kindAt, hat]
    | some x => cases x <;> simp [Node.kindAt, hat, follow]

theorem find_entryName {d : Disk} (h : d.Standing) {s : String} (hs : IsEntryName s) :
    d.find .keep s =
      if d.root.kindAt (d.cwd.place ++ [s]) = none then .error (.os .noEntry)
      else .ok (.ofPlace (d.cwd.place ++ [s])) := by
  simp only [find, pathOf_entryName hs, bind, Except.bind, findPath_component h hs.toIsComponent,
    if_neg (Nat.not_lt.mpr hs.size_le)]
  split <;> rfl

/-- What can be no entry's name leads nowhere, and not for lack of an entry. -/
theorem find_of_not_entryName {d : Disk} (h : d.Standing) {s : String} (hs : IsComponent s)
    (hnot : ¬ IsEntryName s) : ∃ e, d.find .keep s = .error e ∧ e ≠ .os .noEntry := by
  rw [find, pathOf]
  by_cases hnul : s.toList.contains '\x00' = true
  · exact ⟨.nulInPath, by rw [if_pos hnul]; rfl, by simp⟩
  · rw [if_neg hnul]
    by_cases hlimit : pathLimit ≤ s.utf8ByteSize
    · exact ⟨.os .nameTooLong, by rw [if_pos hlimit]; rfl, by simp⟩
    · have hempty : s.isEmpty = false := by simpa using hs.ne_empty
      have hsize : maxName < s.utf8ByteSize := by
        by_contra hle
        exact hnot ⟨hs, by simpa using hnul, Nat.not_lt.mp hle⟩
      refine ⟨.os .nameTooLong, ?_, by simp⟩
      rw [if_neg hlimit, hempty, if_neg (by simp), hs.ofString_eq]
      simp only [bind, Except.bind, findPath_component h hs, if_pos hsize]
      rfl

/-! ## Removing the entry and making it again -/

section Entry

variable {d : Disk} {name : String}

/-- An entry of the working directory does not enclose it. -/
theorem not_entry_le_cwd (d : Disk) (name : String) :
    ¬ d.cwd.place ++ [name] <+: d.cwd.place := by
  intro hle
  have hlen := hle.length_le
  rw [List.length_append, List.length_singleton] at hlen
  omega

theorem above_component (h : d.Standing) (name : String) :
    d.Above ⟨false, [name], false⟩ d.cwd.place :=
  ⟨h.isDir, 0, Nat.zero_le _, .done⟩

theorem isFree_entryName (h : d.Standing) (hn : IsEntryName name)
    (hk : d.root.kindAt (d.cwd.place ++ [name]) = none) :
    d.IsFree ⟨false, [name], false⟩ d.cwd.place name where
  above := above_component h name
  last := rfl
  name := hn.isName
  free := hk

theorem rmdir_entryName (h : d.Standing) (hn : IsEntryName name)
    (hat : d.root.at? (d.cwd.place ++ [name]) = some (.dir [])) :
    d.rmdir name = .ok (d.remove (d.cwd.place ++ [name])) := by
  have hlast : LastStep.name name = lastStep ⟨false, [name], false⟩ :=
    (lastStep_eq_name_iff.mpr ⟨rfl, hn.ne_dot, hn.ne_dotdot⟩).symm
  have hloc := (locatePath_eq_ok_iff h).mpr
    ⟨hlast, d.cwd.place, rfl, above_component h name⟩
  have hent := (lookup?_eq_ok_iff h.isDir).mpr ⟨hn.size_le, hat⟩
  simp only [rmdir, pathOf_entryName hn, bind, Except.bind, rmdirPath, rmdirPlace, hloc, hent]
  rfl

theorem removeAll_of_absent (h : d.Standing) (hn : IsEntryName name)
    (hk : d.root.kindAt (d.cwd.place ++ [name]) = none) :
    removeAll name d = (.error (.os .noEntry), d) := by
  rw [removeAll, find_entryName h hn, if_pos hk]

theorem removeAll_of_file (h : d.Standing) (hn : IsEntryName name) {content : Bytes} {mode : Mode}
    (hk : d.root.kindAt (d.cwd.place ++ [name]) = some (.file content mode)) :
    removeAll name d = (.error (.os .notDirectory), d) := by
  have hat := Node.kindAt_eq_file_iff.mp hk
  rw [removeAll, find_entryName h hn, if_neg (by simp [hk])]
  simp only [node?_ofPlace, hat]

theorem removeAll_of_link (h : d.Standing) (hn : IsEntryName name) {target : String}
    (hk : d.root.kindAt (d.cwd.place ++ [name]) = some (.link target)) :
    removeAll name d = (.ok (), d.remove (d.cwd.place ++ [name])) := by
  have hat := Node.kindAt_eq_link_iff.mp hk
  rw [removeAll, find_entryName h hn, if_neg (by simp [hk])]
  simp only [node?_ofPlace, hat, ofPlace_place]

theorem removeAll_of_dir (h : d.Standing) (hn : IsEntryName name)
    (hk : d.root.kindAt (d.cwd.place ++ [name]) = some .dir) :
    removeAll name d = (.ok (), d.remove (d.cwd.place ++ [name])) := by
  obtain ⟨es, hat⟩ := Node.kindAt_eq_dir_iff.mp hk
  obtain ⟨hcwd, hclear⟩ := clear_standing h (not_entry_le_cwd d name) hk
  have hempty : (d.clear (d.cwd.place ++ [name])).root.at? (d.cwd.place ++ [name]) =
      some (.dir []) := Node.at?_clear_self hk
  have hrmdir := rmdir_entryName hclear hn (by rw [hcwd]; exact hempty)
  -- Emptying before the removal makes no difference to what is left
  have hremove : (d.clear (d.cwd.place ++ [name])).remove (d.cwd.place ++ [name]) =
      d.remove (d.cwd.place ++ [name]) := by
    rw [remove, hcwd, clear, Node.remove_clear]
    rfl
  rw [hcwd, hremove] at hrmdir
  rw [removeAll, find_entryName h hn, if_neg (by simp [hk])]
  simp only [node?_ofPlace, hat, ofPlace_place, hrmdir]

theorem createAll_of_absent (h : d.Standing) (hn : IsEntryName name)
    (hk : d.root.kindAt (d.cwd.place ++ [name]) = none) :
    createAll name d = (.ok (), d.insert d.cwd.place name (.dir [])) := by
  simp only [createAll, pathOf_entryName hn, createAfter,
    (isFree_entryName h hn hk).ensureDirectory h]
  rfl

end Entry

/-- The disk with an empty directory in place of whatever has a name in the working
    directory. -/
def renewed (d : Disk) (name : String) : Disk :=
  let place := d.cwd.place ++ [name]
  (if d.root.kindAt place = none then d else d.remove place).insert d.cwd.place name (.dir [])

/-- A directory can take the place of whatever has a name in the working directory: the name
    is one that an entry can have, no file has it, and it is not found to lead to the working
    directory or to one that encloses it. -/
structure IsRenewable (d : Disk) (name : String) : Prop where
  fits : IsEntryName name
  notFile : ∀ content mode,
    d.root.kindAt (d.cwd.place ++ [name]) ≠ some (.file content mode)
  notEnclosing : OutputDir.encloses d d.cwd.place name = false

section Renewed

variable {d : Disk} {name : String}

/-- The disk on which the directory is made: nothing has its name. -/
private theorem vacated_standing (h : d.Standing) (name : String) :
    let place := d.cwd.place ++ [name]
    let d₁ := if d.root.kindAt place = none then d else d.remove place
    d₁.cwd = d.cwd ∧ d₁.Standing ∧
      ∀ q, d₁.root.kindAt q = if place <+: q then none else d.root.kindAt q := by
  intro place d₁
  by_cases hk : d.root.kindAt place = none
  · have hd₁ : d₁ = d := if_pos hk
    rw [hd₁]
    refine ⟨rfl, h, fun q => ?_⟩
    split
    · rename_i hq
      exact Node.kindAt_none_below hq hk
    · rfl
  · have hd₁ : d₁ = d.remove place := if_neg hk
    obtain ⟨hcwd, hstands⟩ := remove_standing h (not_entry_le_cwd d name)
    rw [hd₁]
    exact ⟨hcwd, hstands, Node.kindAt_remove d.root (by simp [place])⟩

theorem renewed_cwd (h : d.Standing) (name : String) : (d.renewed name).cwd = d.cwd :=
  (vacated_standing h name).1

/-- What is where on the renewed disk: an empty directory has the name. -/
theorem kindAt_renewed (h : d.Standing) (name : String) (q : Place) :
    (d.renewed name).root.kindAt q =
      if q = d.cwd.place ++ [name] then some .dir
      else if d.cwd.place ++ [name] <+: q then none else d.root.kindAt q := by
  obtain ⟨hcwd, hstands, hkind⟩ := vacated_standing h name
  have hfree := hkind (d.cwd.place ++ [name])
  rw [if_pos List.prefix_rfl] at hfree
  have hdir := hstands.isDir
  rw [hcwd] at hdir
  rw [renewed, insert, Node.kindAt_insert hdir hfree, hkind]

end Renewed

end Disk

namespace OutputDir

open Disk

section Recreate

variable {dir : String} {d d₁ d₂ : Disk}

theorem recreate_eq_ok (hrm : removeAll dir d = (.ok (), d₁) ∨
      removeAll dir d = (.error (.os .noEntry), d₁))
    (hmk : createAll dir d₁ = (.ok (), d₂)) : recreate dir d = (.ok (), d₂) := by
  unfold recreate
  rcases hrm with hrm | hrm
  · simp only [hrm, hmk]
  · simp only [hrm, hmk]

theorem recreate_eq_error {e : IoError} (hrm : removeAll dir d = (.error e, d₁))
    (he : e ≠ .os .noEntry) : recreate dir d = (.error (.outputDir dir e), d₁) := by
  unfold recreate
  simp only [hrm]

end Recreate

variable {d : Disk} {name : String}

/-- A component is refused only for where it is found to lead. -/
theorem refused_eq_encloses (hname : IsComponent name) :
    (isNavigation name || encloses d d.cwd.place name) = encloses d d.cwd.place name := by
  have hnav : isNavigation name = false := by
    simp [isNavigation, Path.isNavigation, hname.ofString_eq, hname.ne_dot, hname.ne_dotdot]
  rw [hnav, Bool.false_or]

/-- Where a directory can take the name, an empty one takes the place of whatever had it. -/
theorem reset_eq_ok (h : d.Standing) (hr : d.IsRenewable name) :
    reset name d = (.ok (), d.renewed name) := by
  obtain ⟨hcwd, hstands, hkind⟩ := vacated_standing h name
  have hfree := hkind (d.cwd.place ++ [name])
  rw [if_pos List.prefix_rfl] at hfree
  have hmk := createAll_of_absent hstands hr.fits (by rwa [hcwd])
  rw [reset_of_standing h, refused_eq_encloses hr.fits.toIsComponent, hr.notEnclosing,
    if_neg Bool.false_ne_true]
  refine recreate_eq_ok ?_ (by rw [hmk, hcwd]; rfl)
  cases hk : d.root.kindAt (d.cwd.place ++ [name]) with
  | none => exact .inr (removeAll_of_absent h hr.fits hk)
  | some k =>
    rw [if_neg (by simp)]
    cases k with
    | file content mode => exact absurd hk (hr.notFile content mode)
    | link target => exact .inl (removeAll_of_link h hr.fits hk)
    | dir => exact .inl (removeAll_of_dir h hr.fits hk)

/-- Where no directory can take the name, the reset fails and changes nothing. -/
theorem reset_eq_error (h : d.Standing) (hname : IsComponent name) (hr : ¬ d.IsRenewable name) :
    ∃ e, reset name d = (.error e, d) := by
  rw [reset_of_standing h, refused_eq_encloses hname]
  split
  · exact ⟨_, rfl⟩
  · rename_i href
    by_cases hn : IsEntryName name
    · -- Then a file has the name
      have hfile : ∃ content mode,
          d.root.kindAt (d.cwd.place ++ [name]) = some (.file content mode) := by
        by_contra hno
        exact hr ⟨hn, fun content mode hk => hno ⟨content, mode, hk⟩,
          Bool.eq_false_iff.mpr href⟩
      obtain ⟨content, mode, hk⟩ := hfile
      exact ⟨_, recreate_eq_error (removeAll_of_file h hn hk) (by simp)⟩
    · obtain ⟨e, hfind, he⟩ := find_of_not_entryName h hname hn
      exact ⟨_, recreate_eq_error (by rw [removeAll, hfind]) he⟩

/-- Where nothing has the name, a directory can take it. -/
theorem isRenewable_of_absent (h : d.Standing) (hnames : ∀ s ∈ d.cwd.place, IsEntryName s)
    (hn : IsEntryName name) (hk : d.root.kindAt (d.cwd.place ++ [name]) = none) :
    d.IsRenewable name where
  fits := hn
  notFile content mode hfile := by cases hk.symm.trans hfile
  notEnclosing := by
    refine encloses_eq_false h hnames hn.ne_empty ?_
    rintro ⟨q, ⟨-, -, n, -, hq⟩, -⟩
    rw [hn.ofString_eq] at hq
    obtain ⟨k, hsome⟩ := hq.entry hn.isName
    cases hk.symm.trans hsome

theorem keys_isEntryName : IsEntryName "keys" where
  ne_empty := by decide
  ne_dot := by decide
  ne_dotdot := by decide
  no_slash := by decide
  no_nul := by decide
  size_le := by decide

private theorem linkedDisk_keys :
    linkedDisk.root.kindAt (linkedDisk.cwd.place ++ ["keys"]) = some (.link "vault") := rfl

/-- A link to a directory beside it can be replaced. -/
theorem linkedDisk_isRenewable : linkedDisk.IsRenewable "keys" where
  fits := keys_isEntryName
  notFile content mode hk := by cases linkedDisk_keys.symm.trans hk
  notEnclosing := linkedDisk_encloses

end OutputDir

end Keysmith
