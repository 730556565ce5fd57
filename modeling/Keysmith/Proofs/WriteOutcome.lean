import Keysmith.Proofs.FileWriting

/-!
# Writing does not look into files

Where a path leads, and whether a file can be written there, depends on the directories, the
links and the modes on a disk, but not on what its files hold.

* `SameOutline`   two disks that are the same but for what files hold
* `follow_congr`  a path leads to the same spot on both, or fails alike
* `write_congr`   a file can be written on both, or on neither for the same reason
-/

namespace Keysmith

/-- What an entry is, apart from what a directory or a file holds. -/
def Kind.outline : Kind → Kind
  | .file _ mode => .file [] mode
  | k => k

/-- What can be seen of a node without looking into it. -/
def Node.outline (x : Node) : Kind := x.kind.outline

namespace Node

theorem isSome_entries?_eq (x : Node) : x.entries?.isSome = (x.outline == .dir) := by
  cases x <;> rfl

theorem outline_eq_link_iff {x : Node} {target : String} :
    x.outline = .link target ↔ x = .link target := by
  cases x <;> simp [outline, kind, Kind.outline]

theorem outline_eq_outline_file_iff {x : Node} {content : Bytes} {mode : Mode} :
    x.outline = (file content mode).outline ↔ ∃ content', x = .file content' mode := by
  cases x <;> simp [outline, kind, Kind.outline]

end Node

namespace Disk

/-- Two disks are the same but for what files hold. -/
structure SameOutline (d₁ d₂ : Disk) : Prop where
  cwd_eq : d₁.cwd = d₂.cwd
  outline_eq : ∀ q, (d₁.root.kindAt q).map Kind.outline = (d₂.root.kindAt q).map Kind.outline

theorem SameOutline.symm {d₁ d₂ : Disk} (h : SameOutline d₁ d₂) : SameOutline d₂ d₁ :=
  ⟨h.cwd_eq.symm, fun q => (h.outline_eq q).symm⟩

/-- An entry of a directory that has not been removed is what the tree has there. -/
theorem lookup_entries? {d : Disk} {s : Spot} {es : List (String × Node)} (hs : s.removed = 0)
    (h : d.entries? s = some es) (name : String) :
    es.lookup name = d.root.at? (s.place ++ [name]) := by
  rw [entries?, node?, hs] at h
  rw [Node.at?_concat]
  cases hx : d.root.at? s.place with
  | none => simp [hx] at h
  | some x =>
    rw [hx, Option.bind_some] at h
    rw [Option.bind_some, Node.child?, h, Option.bind_some]

namespace SameOutline

variable {d₁ d₂ : Disk} (h : SameOutline d₁ d₂)
include h

theorem at?_eq (q : Place) :
    (d₁.root.at? q).map Node.outline = (d₂.root.at? q).map Node.outline := by
  have hq := h.outline_eq q
  rwa [Node.kindAt, Node.kindAt, Option.map_map, Option.map_map] at hq

theorem node?_eq (s : Spot) : (d₁.node? s).map Node.outline = (d₂.node? s).map Node.outline := by
  rw [node?, node?]
  split
  · exact h.at?_eq s.place
  · rfl

theorem isSome_entries?_eq (s : Spot) : (d₁.entries? s).isSome = (d₂.entries? s).isSome := by
  have hseen (d : Disk) :
      (d.entries? s).isSome = ((d.node? s).map Node.outline).any (· == .dir) := by
    rw [entries?]
    cases d.node? s with
    | none => rfl
    | some x => exact x.isSome_entries?_eq
  rw [hseen, hseen, h.node?_eq]

/-- What is found of an entry is the same, as far as it can be seen. -/
theorem lookup?_eq (s : Spot) (name : String) :
    (Disk.lookup? d₁ s name).map (Option.map Node.outline) =
      (Disk.lookup? d₂ s name).map (Option.map Node.outline) := by
  have hsome := h.isSome_entries?_eq s
  rw [lookup?, lookup?]
  cases he : d₁.entries? s with
  | none =>
    rw [he, Option.isSome_none, eq_comm, Option.isSome_eq_false_iff, Option.isNone_iff_eq_none]
      at hsome
    rw [hsome]
  | some es =>
    rw [he, Option.isSome_some, eq_comm, Option.isSome_iff_exists] at hsome
    obtain ⟨es', he'⟩ := hsome
    simp only [he']
    split
    · rfl
    · rename_i hremoved
      rw [ne_eq, not_not] at hremoved
      split
      · rfl
      · rw [lookup_entries? hremoved he, lookup_entries? hremoved he']
        exact congrArg Except.ok (h.at?_eq _)

theorem lookup?_of_error {s : Spot} {name : String} {e : OsError}
    (he : Disk.lookup? d₁ s name = .error e) : Disk.lookup? d₂ s name = .error e := by
  have hent := h.lookup?_eq s name
  rw [he] at hent
  cases he' : Disk.lookup? d₂ s name with
  | error e' =>
    rw [he'] at hent
    simpa [Except.map] using hent.symm
  | ok x => simp [he', Except.map] at hent

theorem lookup?_of_none {s : Spot} {name : String} (he : Disk.lookup? d₁ s name = .ok none) :
    Disk.lookup? d₂ s name = .ok none := by
  have hent := h.lookup?_eq s name
  rw [he] at hent
  rcases he' : Disk.lookup? d₂ s name with e | _ | x
  · simp [he', Except.map] at hent
  · rfl
  · simp [he', Except.map] at hent

theorem lookup?_of_some {s : Spot} {name : String} {x : Node}
    (he : Disk.lookup? d₁ s name = .ok (some x)) :
    ∃ x', Disk.lookup? d₂ s name = .ok (some x') ∧ x'.outline = x.outline := by
  have hent := h.lookup?_eq s name
  rw [he] at hent
  rcases he' : Disk.lookup? d₂ s name with e | _ | x'
  · simp [he', Except.map] at hent
  · simp [he', Except.map] at hent
  · rw [he'] at hent
    exact ⟨x', rfl, Option.some.inj (Except.ok.inj hent.symm)⟩

/-- A path leads to the same spot on both disks, or fails alike. -/
theorem follow_congr (last : LastLink) (links : Nat) (here : Spot) (steps : List String) :
    d₁.follow last links here steps = d₂.follow last links here steps := by
  have hdirs (s : Spot) : (d₂.entries? s).isNone = (d₁.entries? s).isNone := by
    rw [← Option.not_isSome, ← Option.not_isSome, h.isSome_entries?_eq]
  -- On the second disk each case of the first is met again: the same entry is missing, or it is
  -- the same link, or it is no link on either
  fun_induction d₁.follow last links here steps with
  | case1 links here => rw [follow]
  | case2 links here step rest hdir =>
    rw [follow, if_pos ((hdirs here).trans hdir)]
  | case3 links here rest hdir ih =>
    rw [follow, hdirs, if_neg hdir, if_pos rfl, ih]
  | case4 links here rest hdir hdot ih =>
    rw [follow, hdirs, if_neg hdir, if_neg hdot, if_pos rfl, ih]
  | case5 links here step rest hdir hdot hup e hent =>
    rw [follow, hdirs, if_neg hdir, if_neg hdot, if_neg hup, h.lookup?_of_error hent]
  | case6 links here step rest hdir hdot hup hent hlast =>
    rw [follow, hdirs, if_neg hdir, if_neg hdot, if_neg hup, h.lookup?_of_none hent]
    simp only [hlast, if_true]
  | case7 links here step rest hdir hdot hup hent hlast =>
    rw [follow, hdirs, if_neg hdir, if_neg hdot, if_neg hup, h.lookup?_of_none hent]
    simp only [hlast]
    rfl
  | case8 links here step rest hdir hdot hup target hent hkeep =>
    obtain ⟨x', hent', hx'⟩ := h.lookup?_of_some hent
    obtain rfl := Node.outline_eq_link_iff.mp hx'
    rw [follow, hdirs, if_neg hdir, if_neg hdot, if_neg hup, hent']
    simp only [hkeep, if_true]
  | case9 here step rest hdir hdot hup target hent hkeep =>
    obtain ⟨x', hent', hx'⟩ := h.lookup?_of_some hent
    obtain rfl := Node.outline_eq_link_iff.mp hx'
    rw [follow, hdirs, if_neg hdir, if_neg hdot, if_neg hup, hent']
    simp only [hkeep]
    rfl
  | case10 here step rest hdir hdot hup target hent hkeep links p ih =>
    obtain ⟨x', hent', hx'⟩ := h.lookup?_of_some hent
    obtain rfl := Node.outline_eq_link_iff.mp hx'
    rw [follow, hdirs, if_neg hdir, if_neg hdot, if_neg hup, hent', ih]
    simp only [hkeep]
    rfl
  | case11 links here step rest hdir hdot hup x hlink hent ih =>
    obtain ⟨x', hent', hx'⟩ := h.lookup?_of_some hent
    rw [follow, hdirs, if_neg hdir, if_neg hdot, if_neg hup, hent', ih]
    -- Of the four cases of the match only the last is not at odds with the entry
    split
    · rename_i heq
      cases heq
    · rename_i heq
      cases heq
    · rename_i heq
      cases heq
      exact (hlink _ (Node.outline_eq_link_iff.mp hx'.symm)).elim
    · rfl

theorem reachPath_congr (last : LastLink) (p : Path) :
    d₁.reachPath last p = d₂.reachPath last p := by
  rw [reachPath, reachPath, h.cwd_eq, h.follow_congr]

theorem locateFrom_congr (here : Spot) (p : Path) :
    d₁.locateFrom here p = d₂.locateFrom here p := by
  rw [locateFrom, locateFrom, h.follow_congr]
  split
  · rfl
  · rfl
  · rw [← Option.not_isSome, ← Option.not_isSome, h.isSome_entries?_eq]

theorem node?_of_link {s : Spot} {target : String} (hx : d₁.node? s = some (.link target)) :
    d₂.node? s = some (.link target) := by
  have hnode := h.node?_eq s
  rw [hx, Option.map_some, eq_comm, Option.map_eq_some_iff] at hnode
  obtain ⟨x', hx', hsame⟩ := hnode
  rw [hx', Node.outline_eq_link_iff.mp hsame]

theorem withoutLastLinks_congr (links : Nat) (here : Spot) (p : Path) :
    d₁.withoutLastLinks links here p = d₂.withoutLastLinks links here p := by
  induction links generalizing here p with
  | zero => rfl
  | succ links ih =>
    rw [withoutLastLinks, withoutLastLinks, h.follow_congr]
    split
    · rfl
    · split
      · rename_i spot _
        split
        · rename_i target hlink
          rw [h.node?_of_link hlink]
          exact ih ..
        · -- No link on the first disk, so none on the second
          rename_i hnot
          split
          · rename_i target hlink
            exact (hnot _ (h.symm.node?_of_link hlink)).elim
          · rfl
      · rfl

/-- Where one disk has a file, so has the other, and it lets itself be written alike. -/
theorem node?_of_file {spot : Spot} {content : Bytes} {held : Mode}
    (hx : d₁.node? spot = some (.file content held)) :
    ∃ content', d₂.node? spot = some (.file content' held) := by
  have hsame := h.node?_eq spot
  rw [hx, Option.map_some, eq_comm, Option.map_eq_some_iff] at hsame
  obtain ⟨x', hx', houtline⟩ := hsame
  obtain ⟨content', rfl⟩ := Node.outline_eq_outline_file_iff.mp houtline
  exact ⟨content', hx'⟩

/-- A file can be opened for writing on both disks, at the same place, or on neither for the same
    reason. -/
theorem openForWriting_congr (mode : Mode) (path : String) :
    (d₁.openForWriting mode path).map Prod.snd = (d₂.openForWriting mode path).map Prod.snd := by
  rw [openForWriting, openForWriting]
  cases pathOf path with
  | error e => simp only [bind, Except.bind, Except.map]
  | ok p =>
    simp only [bind, Except.bind, h.cwd_eq, h.withoutLastLinks_congr, h.locateFrom_congr,
      h.reachPath_congr]
    split
    · -- A path that asks for a directory
      split <;> simp only [Except.map]
    · cases hr : d₂.reachPath .follow p with
      | error e => simp only [Except.mapError, Except.map]
      | ok reached =>
        cases reached with
        | vacant dir name => simp only [Except.mapError, Except.map]
        | «at» spot =>
          simp only [Except.mapError]
          split
          · -- The file is there on both disks, and its mode decides
            rename_i hfile
            obtain ⟨content', hfile'⟩ := h.node?_of_file hfile
            simp only [hfile']
            split <;> rfl
          · rename_i hnone
            split
            · rename_i hfile'
              obtain ⟨content, hfile⟩ := h.symm.node?_of_file hfile'
              exact (hnone _ _ hfile).elim
            · rfl

/-- A file can be written on both disks, or on neither for the same reason. -/
theorem write_congr (path : String) (content : Bytes) :
    (d₁.write path content).map (fun _ => ()) = (d₂.write path content).map fun _ => () := by
  have hopen := h.openForWriting_congr .data path
  rw [write, write]
  cases ho : d₁.openForWriting .data path with
  | error e =>
    cases ho' : d₂.openForWriting .data path with
    | error e' =>
      rw [ho, ho'] at hopen
      cases hopen
      rfl
    | ok o' => simp [ho, ho', Except.map] at hopen
  | ok o =>
    cases ho' : d₂.openForWriting .data path with
    | error e' => simp [ho, ho', Except.map] at hopen
    | ok o' => simp only [bind, Except.bind, Except.map]

end SameOutline

end Disk

end Keysmith
