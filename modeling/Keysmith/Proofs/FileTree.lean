import Keysmith.FileSystem.Node
import Mathlib.Data.List.Infix

/-!
# File trees through their places

`Node.kindAt` gives for each place of a tree what is there: a file with its content
and mode, a link with its target, or a directory, whatever it holds.  As the entries
of a directory have places of their own, all of a tree that a path can reach shows in
`kindAt`, and an operation on trees is described by one equation:

* `kindAt_insert_leaf`  one new place
* `kindAt_remove`  nothing at and below a place
* `kindAt_clear`   nothing below a place

`kindAt_above` says that whatever exists stands in directories.
-/

namespace Keysmith

/-- What an entry is, apart from what a directory holds. -/
inductive Kind where
  | file (content : Bytes) (mode : Mode)
  | link (target : String)
  | dir
  deriving DecidableEq

namespace Node

/-- The kind of a node. -/
def kind : Node → Kind
  | file content mode => .file content mode
  | link target => .link target
  | dir _ => .dir

/-- What a tree has at a place. -/
def kindAt (t : Node) (p : Place) : Option Kind := (t.at? p).map kind

theorem eq_dir_of_kind {t : Node} (h : t.kind = .dir) : ∃ es, t = dir es := by
  cases t with
  | file content mode => simp [kind] at h
  | link target => simp [kind] at h
  | dir es => exact ⟨es, rfl⟩

theorem kindAt_eq_some_iff {t : Node} {p : Place} {k : Kind} :
    t.kindAt p = some k ↔ ∃ x, t.at? p = some x ∧ x.kind = k := by
  simp [kindAt, Option.map_eq_some_iff]

theorem kindAt_eq_none_iff {t : Node} {p : Place} : t.kindAt p = none ↔ t.at? p = none := by
  simp [kindAt]

theorem kindAt_eq_dir_iff {t : Node} {p : Place} :
    t.kindAt p = some .dir ↔ ∃ es, t.at? p = some (dir es) := by
  rw [kindAt_eq_some_iff]
  constructor
  · rintro ⟨x, hx, hk⟩
    obtain ⟨es, rfl⟩ := eq_dir_of_kind hk
    exact ⟨es, hx⟩
  · rintro ⟨es, h⟩
    exact ⟨dir es, h, rfl⟩

theorem kindAt_eq_file_iff {t : Node} {p : Place} {content : Bytes} {mode : Mode} :
    t.kindAt p = some (.file content mode) ↔ t.at? p = some (file content mode) := by
  rw [kindAt]
  cases t.at? p with
  | none => simp
  | some x => cases x <;> simp [kind]

theorem kindAt_eq_link_iff {t : Node} {p : Place} {target : String} :
    t.kindAt p = some (.link target) ↔ t.at? p = some (link target) := by
  rw [kindAt]
  cases t.at? p with
  | none => simp
  | some x => cases x <;> simp [kind]

theorem at?_concat (t : Node) (p : Place) (name : String) :
    t.at? (p ++ [name]) = (t.at? p).bind (·.child? name) := by
  rw [at?_append]
  congr 1
  funext x
  simp only [at?]
  cases x.child? name <;> rfl

/-- Only a directory has anything below it. -/
theorem kindAt_above {t : Node} {p q : Place} (hp : p <+: q) (hne : p ≠ q)
    (h : t.kindAt q ≠ none) : t.kindAt p = some .dir := by
  obtain ⟨r, rfl⟩ := hp
  cases r with
  | nil => exact absurd (List.append_nil p).symm hne
  | cons name r =>
    rw [kindAt, at?_append] at h
    rw [kindAt]
    cases hx : t.at? p with
    | none => simp [hx] at h
    | some x => cases x <;> simp_all [at?, child?, entries?, kind]

/-- Every place on the way to a directory is a directory. -/
theorem kindAt_dir_above {t : Node} {p q : Place} (hp : p <+: q)
    (h : t.kindAt q = some .dir) : t.kindAt p = some .dir := by
  by_cases hne : p = q
  · rw [hne, h]
  · exact kindAt_above hp hne (by simp [h])

/-- Where an entry is, there is a directory that it is in. -/
theorem kindAt_dir_of_entry {t : Node} {p : Place} {name : String} {k : Kind}
    (h : t.kindAt (p ++ [name]) = some k) : t.kindAt p = some .dir :=
  kindAt_above (List.prefix_append p [name]) (by simp) (by simp [h])

/-- Nothing is below a place where nothing is. -/
theorem kindAt_none_below {t : Node} {p q : Place} (hp : p <+: q)
    (h : t.kindAt p = none) : t.kindAt q = none := by
  by_cases hne : p = q
  · rw [← hne, h]
  · by_contra hq
    rw [kindAt_above hp hne hq] at h
    cases h

/-! ## Changing a tree at a place -/

private theorem lookup_map_modify (f : Node → Node) (place : Place) (name n : String)
    (es : List (String × Node)) :
    (es.map fun e => if e.1 = name then (e.1, modify f place e.2) else e).lookup n =
      if n = name then (es.lookup n).map (modify f place) else es.lookup n := by
  induction es with
  | nil => simp
  | cons e es ih =>
    obtain ⟨m, x⟩ := e
    rw [List.map_cons]
    by_cases hn : n = m
    · subst hn
      by_cases hm : n = name <;> simp [hm]
    · have hnm : (n == m) = false := beq_eq_false_iff_ne.mpr hn
      by_cases hm : m = name
      · simp only [if_pos hm, List.lookup_cons, hnm, ih]
      · simp only [if_neg hm, List.lookup_cons, hnm, ih]

theorem child?_modify_cons (f : Node → Node) (place : Place) (name n : String) (t : Node) :
    (modify f (name :: place) t).child? n =
      if n = name then (t.child? n).map (modify f place) else t.child? n := by
  cases t with
  | file content mode => simp [modify, child?, entries?]
  | link target => simp [modify, child?, entries?]
  | dir es =>
    simp only [modify, child?, entries?, Option.bind_some]
    exact lookup_map_modify f place name n es

theorem kind_modify_cons (f : Node → Node) (name : String) (place : Place) (t : Node) :
    (modify f (name :: place) t).kind = t.kind := by
  cases t <;> rfl

/-- At and below the place of a change, the changed part counts. -/
theorem at?_modify_append (f : Node → Node) (p r : Place) (t : Node) :
    (modify f p t).at? (p ++ r) = ((t.at? p).map f).bind (·.at? r) := by
  induction p generalizing t with
  | nil => simp [modify]
  | cons name p ih =>
    simp only [List.cons_append, at?, child?_modify_cons]
    cases t.child? name with
    | none => simp
    | some x => simpa using ih x

/-- A change at a place keeps what is elsewhere. -/
theorem kindAt_modify_of_not_below (f : Node → Node) {p q : Place} (h : ¬ p <+: q)
    (t : Node) : (modify f p t).kindAt q = t.kindAt q := by
  induction p generalizing t q with
  | nil => exact absurd List.nil_prefix h
  | cons name p ih =>
    cases q with
    | nil => simp [kindAt, kind_modify_cons]
    | cons n q =>
      simp only [kindAt, at?, child?_modify_cons]
      by_cases hn : n = name
      · -- The two places go the same way, so they part further down
        subst hn
        have hpq : ¬ p <+: q := fun hpq => h ((List.prefix_cons_inj n).mpr hpq)
        cases t.child? n with
        | none => simp
        | some x => simpa [kindAt] using ih hpq x
      · rw [if_neg hn]

/-- Another content of a file changes its place and no other one. -/
theorem kindAt_modify_file {f : Node → Node} {t : Node} {p : Place} {content content' : Bytes}
    {mode mode' : Mode} (hp : t.kindAt p = some (.file content mode))
    (hf : f (file content mode) = file content' mode') (q : Place) :
    (modify f p t).kindAt q = if q = p then some (.file content' mode') else t.kindAt q := by
  by_cases hq : p <+: q
  · obtain ⟨r, rfl⟩ := hq
    have hx := kindAt_eq_file_iff.mp hp
    rw [kindAt, at?_modify_append, hx, Option.map_some, Option.bind_some, hf, kindAt,
      at?_append, hx, Option.bind_some]
    cases r with
    | nil => simp [kind]
    | cons n r => simp [at?, child?, entries?]
  · rw [kindAt_modify_of_not_below _ hq, if_neg]
    rintro rfl
    exact hq List.prefix_rfl

/-! ## Inserting, removing and clearing -/

theorem child?_withEntry (name n : String) (x : Node) (es : List (String × Node)) :
    (withEntry name x (dir es)).child? n = if n = name then some x else es.lookup n := by
  by_cases h : n = name
  · subst h
    simp [withEntry, child?, entries?]
  · have hn : (n == name) = false := beq_eq_false_iff_ne.mpr h
    simp [withEntry, child?, entries?, List.lookup_cons, hn, h]

theorem child?_withoutEntry (name n : String) (t : Node) :
    (withoutEntry name t).child? n = if n = name then none else t.child? n := by
  cases t with
  | file content mode => simp [withoutEntry, child?, entries?]
  | link target => simp [withoutEntry, child?, entries?]
  | dir es =>
    simp only [withoutEntry, child?, entries?, Option.bind_some]
    induction es with
    | nil => simp
    | cons e es ih =>
      obtain ⟨m, x⟩ := e
      by_cases hm : m = name
      · -- This entry is dropped
        subst hm
        by_cases hn : n = m
        · rw [if_pos hn] at ih ⊢
          simpa using ih
        · have hnm : (n == m) = false := beq_eq_false_iff_ne.mpr hn
          simpa [List.lookup_cons, hnm, hn] using ih
      · -- This entry is kept
        by_cases hn : n = m
        · subst hn
          simp [hm]
        · have hnm : (n == m) = false := beq_eq_false_iff_ne.mpr hn
          simpa [List.lookup_cons, hnm, hm] using ih

theorem kind_withoutEntry (name : String) (t : Node) : (withoutEntry name t).kind = t.kind := by
  cases t <;> rfl

/-- Inserting something with nothing below it makes one new place. -/
theorem kindAt_insert_leaf {t x : Node} {p : Place} {name : String}
    (hx : ∀ n, x.child? n = none) (hp : t.kindAt p = some .dir)
    (hfree : t.kindAt (p ++ [name]) = none) (q : Place) :
    (t.insert p name x).kindAt q = if q = p ++ [name] then some x.kind else t.kindAt q := by
  by_cases hq : p <+: q
  · obtain ⟨r, rfl⟩ := hq
    obtain ⟨es, hes⟩ := kindAt_eq_dir_iff.mp hp
    rw [insert, kindAt, at?_modify_append, hes, kindAt, at?_append, hes]
    cases r with
    | nil => simp [withEntry, kind]
    | cons n r =>
      simp only [Option.map_some, Option.bind_some, at?, child?_withEntry]
      by_cases hn : n = name
      · subst hn
        -- Below the new entry there is nothing, and nothing was there before
        have hnone : (dir es).child? n = none := by
          have := kindAt_eq_none_iff.mp hfree
          rwa [at?_concat, hes] at this
        rw [hnone]
        cases r <;> simp [at?, hx]
      · simp [hn, child?, entries?]
  · rw [insert, kindAt_modify_of_not_below _ hq, if_neg]
    rintro rfl
    exact hq (List.prefix_append p [name])

/-- Inserting an empty directory makes one new place. -/
theorem kindAt_insert {t : Node} {p : Place} {name : String} (hp : t.kindAt p = some .dir)
    (hfree : t.kindAt (p ++ [name]) = none) (q : Place) :
    (t.insert p name (dir [])).kindAt q = if q = p ++ [name] then some .dir else t.kindAt q :=
  kindAt_insert_leaf (fun _ => rfl) hp hfree q

theorem at?_insert_self {t : Node} {p : Place} {name : String} (x : Node)
    (hp : t.kindAt p = some .dir) : (t.insert p name x).at? (p ++ [name]) = some x := by
  obtain ⟨es, hes⟩ := kindAt_eq_dir_iff.mp hp
  simp [insert, at?_modify_append, hes, at?, child?_withEntry]

/-- Removing leaves nothing at and below the place. -/
theorem kindAt_remove (t : Node) {p : Place} (hne : p ≠ []) (q : Place) :
    (t.remove p).kindAt q = if p <+: q then none else t.kindAt q := by
  obtain ⟨init, name, rfl⟩ : ∃ init name, p = init ++ [name] :=
    ⟨p.dropLast, p.getLast hne, (List.dropLast_append_getLast hne).symm⟩
  simp only [remove, List.getLast?_append, List.getLast?_singleton, Option.some_or,
    List.dropLast_concat]
  by_cases hq : init <+: q
  · obtain ⟨r, rfl⟩ := hq
    rw [kindAt, at?_modify_append, kindAt, at?_append]
    cases r with
    | nil =>
      -- The directory itself: it is above the place
      have hnot : ¬ init ++ [name] <+: init := fun h => by
        have hle := h.length_le
        rw [List.length_append, List.length_singleton] at hle
        omega
      cases t.at? init <;> simp [hnot, kind_withoutEntry]
    | cons n r =>
      -- Below the directory only the first name decides
      have hiff : init ++ [name] <+: init ++ n :: r ↔ n = name := by
        rw [List.prefix_append_right_inj, List.cons_prefix_cons]
        simp [eq_comm]
      cases t.at? init with
      | none => simp
      | some x =>
        simp only [Option.map_some, Option.bind_some, at?, child?_withoutEntry, hiff]
        by_cases hn : n = name <;> simp [hn]
  · have hnot : ¬ init ++ [name] <+: q := fun h => hq ((List.prefix_append _ _).trans h)
    rw [kindAt_modify_of_not_below _ hq, if_neg hnot]

theorem remove_concat (t : Node) (p : Place) (name : String) :
    t.remove (p ++ [name]) = t.modify (withoutEntry name) p := by
  simp [remove]

/-- A change inside the place of another change is part of that one. -/
theorem modify_modify_append (f g : Node → Node) (p r : Place) (t : Node) :
    modify f p (modify g (p ++ r) t) = modify (fun x => f (modify g r x)) p t := by
  induction p generalizing t with
  | nil => rfl
  | cons name p ih =>
    cases t with
    | file content mode => rfl
    | link target => rfl
    | dir es =>
      simp only [List.cons_append, modify, List.map_map, dir.injEq]
      refine List.map_congr_left fun e _ => ?_
      by_cases he : e.1 = name <;> simp [he, ih]

/-- What an entry holds does not matter once it is taken out. -/
theorem withoutEntry_modify (g : Node → Node) (name : String) (t : Node) :
    withoutEntry name (modify g [name] t) = withoutEntry name t := by
  cases t with
  | file content mode => rfl
  | link target => rfl
  | dir es =>
    simp only [modify, withoutEntry, dir.injEq]
    induction es with
    | nil => rfl
    | cons e es ih => by_cases he : e.1 = name <;> simp [he, ih]

/-- A change at or below an entry does not matter once the entry is removed. -/
theorem remove_modify_below (f : Node → Node) (t : Node) (p : Place) (name : String)
    (r : Place) :
    (modify f (p ++ [name] ++ r) t).remove (p ++ [name]) = t.remove (p ++ [name]) := by
  have hcons (x : Node) : modify f ([name] ++ r) x = modify (modify f r) [name] x := by
    cases x <;> rfl
  rw [remove_concat, remove_concat, List.append_assoc, modify_modify_append]
  congr 1
  funext x
  rw [hcons, withoutEntry_modify]

/-- A directory is removed the same whether it was emptied before or not. -/
theorem remove_clear (t : Node) (p : Place) (name : String) :
    (t.clear (p ++ [name])).remove (p ++ [name]) = t.remove (p ++ [name]) := by
  have h := remove_modify_below (fun _ => dir []) t p name []
  rwa [List.append_nil] at h

/-- Clearing leaves nothing below the place. -/
theorem kindAt_clear {t : Node} {p : Place} (hp : t.kindAt p = some .dir) (q : Place) :
    (t.clear p).kindAt q = if p <+: q ∧ p ≠ q then none else t.kindAt q := by
  by_cases hq : p <+: q
  · obtain ⟨r, rfl⟩ := hq
    obtain ⟨es, hes⟩ := kindAt_eq_dir_iff.mp hp
    rw [clear, kindAt, at?_modify_append, hes]
    cases r with
    | nil => simp [kindAt, hes, kind]
    | cons n r => simp [at?, child?, entries?]
  · rw [clear, kindAt_modify_of_not_below _ hq, if_neg fun h => hq h.1]

theorem at?_clear_self {t : Node} {p : Place} (hp : t.kindAt p = some .dir) :
    (t.clear p).at? p = some (dir []) := by
  obtain ⟨es, hes⟩ := kindAt_eq_dir_iff.mp hp
  have h := at?_modify_append (fun _ => dir []) p [] t
  rw [List.append_nil, hes] at h
  exact h

end Node

end Keysmith
