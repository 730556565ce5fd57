/-! # Cutting a text into lines and pieces

* `cutAt p s` cuts `s` before its first character that satisfies `p`.
* `pieces p s` are the parts between the characters that satisfy `p`.
* `lines s` are the lines of `s` without their endings.
* `mentions key s` says whether `key` occurs in `s`.

The lemmas give the equations by which a text built from known parts is cut:
`pieces_append` for a first piece and its separator, `lines_append` for a first
line and its ending. -/

namespace Keysmith.Text

/-- The part of a text before the first character that satisfies `p`, and the
    rest, which begins with that character if there is one. -/
def cutAt (p : Char → Bool) (s : List Char) : List Char × List Char :=
  (s.takeWhile fun c => !p c, s.dropWhile fun c => !p c)

/-- Nothing is lost by a cut. -/
theorem cutAt_append (p : Char → Bool) (s : List Char) :
    (cutAt p s).1 ++ (cutAt p s).2 = s :=
  List.takeWhile_append_dropWhile

theorem cutAt_rest_length_le (p : Char → Bool) (s : List Char) :
    (cutAt p s).2.length ≤ s.length := by
  have h := congrArg List.length (cutAt_append p s)
  rw [List.length_append] at h
  omega

/-- Before a cut there is no separator. -/
theorem cutAt_fst {p : Char → Bool} {s : List Char} : ∀ c ∈ (cutAt p s).1, p c = false := by
  intro c hc
  simpa using List.all_eq_true.mp List.all_takeWhile c hc

/-- What begins the rest of a cut is a separator. -/
theorem cutAt_snd {p : Char → Bool} {s r : List Char} {c : Char} (h : (cutAt p s).2 = c :: r) :
    p c = true := by
  have hhead := List.head?_dropWhile_not (fun x => !p x) s
  rw [show s.dropWhile (fun x => !p x) = c :: r from h] at hhead
  simpa using hhead

/-- A text without separators followed by a separator is cut there. -/
theorem cutAt_append_of_sep {p : Char → Bool} {l : List Char} (hl : ∀ c ∈ l, p c = false)
    {c : Char} (hc : p c = true) (r : List Char) : cutAt p (l ++ c :: r) = (l, c :: r) := by
  have hn : ∀ x ∈ l, (!p x) = true := fun x hx => by simp [hl x hx]
  rw [cutAt, List.takeWhile_append_of_pos hn, List.dropWhile_append_of_pos hn]
  simp [hc]

/-- A text without separators is not cut. -/
theorem cutAt_of_forall {p : Char → Bool} {l : List Char} (hl : ∀ c ∈ l, p c = false) :
    cutAt p l = (l, []) := by
  have hn : ∀ x ∈ l, (!p x) = true := fun x hx => by simp [hl x hx]
  have htake : (l ++ []).takeWhile (fun c => !p c) = l ++ [].takeWhile fun c => !p c :=
    List.takeWhile_append_of_pos hn
  have hdrop : (l ++ []).dropWhile (fun c => !p c) = [].dropWhile fun c => !p c :=
    List.dropWhile_append_of_pos hn
  simp only [List.append_nil, List.takeWhile_nil, List.dropWhile_nil] at htake hdrop
  rw [cutAt, htake, hdrop]

/-- The parts of a text between the characters that satisfy `p`: one more than
    there are such characters. -/
def pieces (p : Char → Bool) (s : List Char) : List (List Char) :=
  match _hr : (cutAt p s).2 with
  | [] => [(cutAt p s).1]
  | _ :: rest => (cutAt p s).1 :: pieces p rest
termination_by s.length
decreasing_by
  have hle := cutAt_rest_length_le p s
  rw [_hr] at hle
  simp only [List.length_cons] at hle
  omega

theorem pieces_ne_nil (p : Char → Bool) (s : List Char) : pieces p s ≠ [] := by
  rw [pieces]
  split <;> simp

/-- A first piece with its separator. -/
theorem pieces_append {p : Char → Bool} {l : List Char} (hl : ∀ c ∈ l, p c = false)
    {c : Char} (hc : p c = true) (r : List Char) :
    pieces p (l ++ c :: r) = l :: pieces p r := by
  have hcut := cutAt_append_of_sep hl hc r
  rw [pieces]
  split
  · rename_i h
    rw [hcut] at h
    simp at h
  · rename_i h
    rw [hcut] at h ⊢
    simp only [List.cons.injEq] at h
    rw [h.2]

/-- A text without separators is one piece. -/
theorem pieces_of_forall {p : Char → Bool} {l : List Char} (hl : ∀ c ∈ l, p c = false) :
    pieces p l = [l] := by
  have hcut := cutAt_of_forall hl
  rw [pieces]
  split
  · rw [hcut]
  · rename_i h
    rw [hcut] at h
    simp at h

/-- A text without separators is one piece, any other is cut at its first separator. -/
theorem pieces_cases (p : Char → Bool) (s : List Char) :
    ((∀ c ∈ s, p c = false) ∧ pieces p s = [s]) ∨
      ∃ l c r, s = l ++ c :: r ∧ (∀ x ∈ l, p x = false) ∧ p c = true ∧
        pieces p s = l :: pieces p r := by
  have hbefore : ∀ x ∈ (cutAt p s).1, p x = false := cutAt_fst
  have hs := cutAt_append p s
  cases hr : (cutAt p s).2 with
  | nil =>
    rw [hr, List.append_nil] at hs
    rw [hs] at hbefore
    exact .inl ⟨hbefore, pieces_of_forall hbefore⟩
  | cons c r =>
    have hc : p c = true := cutAt_snd hr
    rw [hr] at hs
    refine .inr ⟨_, c, r, hs.symm, hbefore, hc, ?_⟩
    rw [← pieces_append hbefore hc r, hs]

/-- A character that is no separator is in one of the pieces. -/
theorem exists_mem_pieces {p : Char → Bool} {c : Char} {s : List Char} (hc : c ∈ s)
    (hp : p c = false) : ∃ l ∈ pieces p s, c ∈ l := by
  fun_induction pieces p s with
  | case1 s hr =>
    rw [← cutAt_append p s, hr, List.append_nil] at hc
    exact ⟨_, List.mem_singleton_self _, hc⟩
  | case2 s b rest hr ih =>
    rw [← cutAt_append p s, hr, List.mem_append, List.mem_cons] at hc
    rcases hc with hc | rfl | hc
    · exact ⟨_, List.mem_cons_self, hc⟩
    · cases hp.symm.trans (cutAt_snd hr)
    · obtain ⟨l, hl, hcl⟩ := ih hc
      exact ⟨l, List.mem_cons_of_mem _ hl, hcl⟩

/-- Drop one carriage return from the end. -/
def dropReturn (l : List Char) : List Char :=
  if l.getLast? = some '\r' then l.dropLast else l

/-- The lines of a text, without their endings.  A line ends in a line feed or in
    a carriage return and a line feed; what follows the last ending is a line
    only if it is not empty, and it keeps a carriage return at its end. -/
def lines (s : List Char) : List (List Char) :=
  let ps := pieces (· == '\n') s
  ps.dropLast.map dropReturn ++ ps.getLast?.toList.filter (!·.isEmpty)

@[simp] theorem lines_nil : lines [] = [] := by
  rw [lines, pieces_of_forall (by simp)]
  rfl

/-- A first line with its ending. -/
theorem lines_append {l : List Char} (hl : ∀ c ∈ l, c ≠ '\n') (r : List Char) :
    lines (l ++ '\n' :: r) = dropReturn l :: lines r := by
  have hp : pieces (· == '\n') (l ++ '\n' :: r) = l :: pieces (· == '\n') r :=
    pieces_append (fun c hc => by simpa using hl c hc) (by simp) r
  have hne := pieces_ne_nil (· == '\n') r
  simp only [lines, hp, List.dropLast_cons_of_ne_nil hne, List.map_cons, List.cons_append]
  rw [List.getLast?_cons_of_ne_nil hne]

/-- A last line without an ending. -/
theorem lines_of_forall {l : List Char} (hl : ∀ c ∈ l, c ≠ '\n') (hne : l ≠ []) :
    lines l = [l] := by
  have hp : pieces (· == '\n') l = [l] :=
    pieces_of_forall fun c hc => by simpa using hl c hc
  simp [lines, hp, hne]

/-- Whether `key` occurs somewhere in a text. -/
def mentions (key : List Char) : List Char → Bool
  | [] => key.isEmpty
  | c :: s => key.isPrefixOf (c :: s) || mentions key s

theorem mentions_iff {key s : List Char} : mentions key s = true ↔ key <:+: s := by
  induction s with
  | nil => simp [mentions]
  | cons c s ih =>
    rw [mentions, Bool.or_eq_true, ih, List.isPrefixOf_iff_prefix, List.infix_cons_iff]

end Keysmith.Text
