import Keysmith.Proofs.FileTree
import Keysmith.Proofs.PathText

/-!
# Proper trees

A tree is proper if no directory lists a name twice and every name is one that an entry can
have, as in all trees that file systems have.  Then a tree that looks unchanged to every path
is unchanged:

* `Proper.modify_eq_self`  a change that leaves alone what a place holds leaves the tree alone
* `Proper.after_modify`, `Proper.after_insert`, `Proper.after_remove`  changes that keep trees
  proper
* `remove_insert_remove`  removing an entry leaves nothing of what took its place
-/

namespace Keysmith.Node

/-- A tree as file systems have them: no directory lists a name twice, and every name is
    one that an entry can have. -/
inductive Proper : Node → Prop
  | file (content : Bytes) (mode : Mode) : Proper (.file content mode)
  | link (target : String) : Proper (.link target)
  | dir {es : List (String × Node)} :
      (es.map Prod.fst).Nodup → (∀ e ∈ es, IsEntryName e.1) → (∀ e ∈ es, Proper e.2) →
      Proper (.dir es)

private theorem mem_of_lookup {es : List (String × Node)} {name : String} {x : Node}
    (h : es.lookup name = some x) : (name, x) ∈ es := by
  obtain ⟨a, b, rfl, -⟩ := List.lookup_eq_some_iff.mp h
  simp

private theorem lookup_of_mem {es : List (String × Node)} (hnodup : (es.map Prod.fst).Nodup)
    {e : String × Node} (he : e ∈ es) : es.lookup e.1 = some e.2 := by
  induction es with
  | nil => cases he
  | cons e' es ih =>
    rw [List.map_cons, List.nodup_cons] at hnodup
    rcases List.mem_cons.mp he with rfl | he
    · exact List.lookup_cons_self
    · -- Another entry has another name
      have hne : e.1 ≠ e'.1 := fun heq => hnodup.1 (heq ▸ List.mem_map_of_mem he)
      rw [List.lookup_cons, beq_eq_false_iff_ne.mpr hne]
      exact ih hnodup.2 he

namespace Proper

variable {t x : Node} {p : Place} {name : String}

theorem empty : (Node.dir []).Proper := .dir List.nodup_nil (by simp) (by simp)

theorem of_child? (h : t.Proper) (hx : t.child? name = some x) :
    IsEntryName name ∧ x.Proper := by
  cases h with
  | file => cases hx
  | link => cases hx
  | @dir es _ hnames hproper =>
    have hmem : (name, x) ∈ es := mem_of_lookup hx
    exact ⟨hnames _ hmem, hproper _ hmem⟩

theorem of_at? (h : t.Proper) (hx : t.at? p = some x) : x.Proper := by
  induction p generalizing t with
  | nil =>
    cases hx
    exact h
  | cons name p ih =>
    obtain ⟨y, hy, hx⟩ := Option.bind_eq_some_iff.mp hx
    exact ih (h.of_child? hy).2 hx

/-- What exists has a name that an entry can have. -/
theorem isEntryName (h : t.Proper) (hx : t.kindAt (p ++ [name]) ≠ none) : IsEntryName name := by
  rw [Ne, kindAt_eq_none_iff, at?_concat] at hx
  obtain ⟨x, hx⟩ := Option.ne_none_iff_exists'.mp hx
  obtain ⟨y, hy, hx⟩ := Option.bind_eq_some_iff.mp hx
  exact ((h.of_at? hy).of_child? hx).1

/-- So do all places on the way to it. -/
theorem isEntryName_of_mem (h : t.Proper) (hx : t.kindAt p ≠ none) : ∀ s ∈ p, IsEntryName s := by
  intro s hs
  obtain ⟨init, rest, rfl⟩ := List.append_of_mem hs
  refine h.isEntryName (p := init) fun hnone => hx ?_
  rw [List.append_cons]
  exact kindAt_none_below (List.prefix_append _ rest) hnone

/-- A change that leaves alone what a place holds leaves the tree alone. -/
theorem modify_eq_self {f : Node → Node} (h : t.Proper) (hf : ∀ x, t.at? p = some x → f x = x) :
    modify f p t = t := by
  induction p generalizing t with
  | nil => exact hf t rfl
  | cons name p ih =>
    cases h with
    | file => rfl
    | link => rfl
    | @dir es hnodup _ hproper =>
      rw [modify, List.map_congr_left (g := id), List.map_id]
      intro e he
      by_cases hname : e.1 = name
      · -- The entry is the one that counts, because no other one has its name
        have hchild : (Node.dir es).child? name = some e.2 := hname ▸ lookup_of_mem hnodup he
        rw [if_pos hname, ih (hproper e he) fun x hx => hf x ?_]
        · rfl
        · rw [at?, hchild]
          exact hx
      · rw [if_neg hname]
        rfl

/-- A change that leaves what a place holds proper leaves the tree proper. -/
theorem after_modify {f : Node → Node} (h : t.Proper)
    (hf : ∀ x, t.at? p = some x → x.Proper → (f x).Proper) : (modify f p t).Proper := by
  induction p generalizing t with
  | nil => exact hf t rfl h
  | cons name p ih =>
    cases h with
    | file content mode => exact .file content mode
    | link target => exact .link target
    | @dir es hnodup hnames hproper =>
      let change (e : String × Node) : String × Node :=
        if e.1 = name then (e.1, modify f p e.2) else e
      -- The names stay what they were
      have hfst : ∀ e, (change e).1 = e.1 := fun e => by
        simp only [change]
        split <;> rfl
      refine .dir ?_ ?_ ?_
      · rw [List.map_map]
        convert hnodup using 2
        exact funext hfst
      · intro e' he'
        obtain ⟨e, he, rfl⟩ := List.mem_map.mp he'
        have hname := hnames e he
        rwa [← hfst e] at hname
      · intro e' he'
        obtain ⟨e, he, rfl⟩ := List.mem_map.mp he'
        by_cases hname : e.1 = name
        · -- The one entry of the name holds what the change is about
          have hchild : (Node.dir es).child? name = some e.2 := hname ▸ lookup_of_mem hnodup he
          rw [if_pos hname]
          refine ih (hproper e he) fun x hx => hf x ?_
          rw [at?, hchild]
          exact hx
        · rw [if_neg hname]
          exact hproper e he

theorem after_withoutEntry (h : t.Proper) (name : String) : (withoutEntry name t).Proper := by
  cases h with
  | file content mode => exact .file content mode
  | link target => exact .link target
  | @dir es hnodup hnames hproper =>
    have hsub := List.filter_sublist (p := fun e => e.1 != name) (l := es)
    exact .dir (hnodup.sublist (hsub.map Prod.fst)) (fun e he => hnames e (hsub.subset he))
      fun e he => hproper e (hsub.subset he)

theorem after_withEntry (h : t.Proper) (hn : IsEntryName name) (hx : x.Proper)
    (hfree : t.child? name = none) : (withEntry name x t).Proper := by
  cases h with
  | file content mode => exact .file content mode
  | link target => exact .link target
  | @dir es hnodup hnames hproper =>
    have hnot : name ∉ es.map Prod.fst := by
      intro hmem
      obtain ⟨e, he, rfl⟩ := List.mem_map.mp hmem
      cases hfree.symm.trans (lookup_of_mem hnodup he)
    refine .dir (List.nodup_cons.mpr ⟨hnot, hnodup⟩) ?_ ?_
    · rintro e (_ | ⟨_, he⟩)
      · exact hn
      · exact hnames e he
    · rintro e (_ | ⟨_, he⟩)
      · exact hx
      · exact hproper e he

/-- Where nothing is, nothing is removed. -/
theorem remove_eq_self (h : t.Proper) (hx : t.kindAt (p ++ [name]) = none) :
    t.remove (p ++ [name]) = t := by
  rw [remove_concat]
  refine h.modify_eq_self fun x hp => ?_
  rw [kindAt_eq_none_iff, at?_concat, hp, Option.bind_some] at hx
  cases x with
  | file content mode => rfl
  | link target => rfl
  | dir es =>
    have hnone : es.lookup name = none := hx
    rw [withoutEntry, List.filter_eq_self.mpr]
    intro e he
    have hne := List.lookup_eq_none_iff.mp hnone e he
    rw [bne_iff_ne] at hne ⊢
    exact hne.symm

theorem after_remove (h : t.Proper) (p : Place) (name : String) :
    (t.remove (p ++ [name])).Proper := by
  rw [remove_concat]
  exact h.after_modify fun x _ hx => hx.after_withoutEntry name

theorem after_insert (h : t.Proper) (hn : IsEntryName name) (hx : x.Proper)
    (hfree : t.kindAt (p ++ [name]) = none) : (t.insert p name x).Proper := by
  refine h.after_modify fun y hy hproper => hproper.after_withEntry hn hx ?_
  rw [kindAt_eq_none_iff, at?_concat, hy] at hfree
  exact hfree

end Proper

/-- Removing an entry leaves nothing of what was put in its place. -/
theorem remove_insert_remove (t x : Node) (p : Place) (name : String) :
    ((t.remove (p ++ [name])).insert p name x).remove (p ++ [name]) = t.remove (p ++ [name]) := by
  have hmodify (f g : Node → Node) (u : Node) :
      modify f p (modify g p u) = modify (fun y => f (g y)) p u := by
    simpa [modify] using modify_modify_append f g p [] u
  rw [remove_concat, remove_concat, insert, hmodify, hmodify]
  congr 1
  funext y
  cases y with
  | file content mode => rfl
  | link target => rfl
  | dir es => simp [withoutEntry, withEntry]

end Keysmith.Node
