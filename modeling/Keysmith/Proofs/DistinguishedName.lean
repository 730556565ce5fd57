import Keysmith.Certificate.DistinguishedName

/-!
# Distinguished names read back

The written form of a distinguished name is cut at the commas that no backslash precedes,
and each piece at its first such equals sign.  Whatever the values are, the cuts fall
exactly where the form was put together, because everything between them is `Whole`:

* `Whole`  cutting at a separator leaves the text in one piece, whatever follows it
* `Whole.escape`  an escaped value is whole for every separator
* `cutUnescaped_intercalate`  whole texts with commas between them are cut at these commas
* `read?_text`  the written form determines the name

The escape character needs an escape itself for this: in `Whole.escape` a backslash is read
together with the character behind it, so the number of backslashes before a separator
never matters.
-/

namespace Keysmith.DistinguishedName

/-! ## Cutting, step by step -/

theorem onFirst_append (a b : List Char) (ps : List (List Char)) :
    onFirst (a ++ b) ps = onFirst a (onFirst b ps) := by
  cases ps with
  | nil => rfl
  | cons p ps => simp [onFirst]

theorem cutUnescaped_escaped (sep c : Char) (s : List Char) :
    cutUnescaped sep ('\\' :: c :: s) = onFirst ['\\', c] (cutUnescaped sep s) := by
  rw [cutUnescaped, if_pos rfl]

theorem cutUnescaped_sep {sep : Char} (hsep : sep ≠ '\\') (s : List Char) :
    cutUnescaped sep (sep :: s) = [] :: cutUnescaped sep s := by
  cases s with
  | nil => simp [cutUnescaped]
  | cons d s => rw [cutUnescaped, if_neg hsep, if_pos rfl]

theorem cutUnescaped_plain {sep c : Char} (hb : c ≠ '\\') (hc : c ≠ sep) (s : List Char) :
    cutUnescaped sep (c :: s) = onFirst [c] (cutUnescaped sep s) := by
  cases s with
  | nil => simp [cutUnescaped, hc, onFirst]
  | cons d s => rw [cutUnescaped, if_neg hb, if_neg hc]

theorem onFirst_ne_nil (front : List Char) (ps : List (List Char)) : onFirst front ps ≠ [] := by
  cases ps <;> simp [onFirst]

theorem cutUnescaped_ne_nil (sep : Char) (s : List Char) : cutUnescaped sep s ≠ [] := by
  fun_induction cutUnescaped sep s with
  | case1 => simp
  | case2 => simp
  | case3 => simp
  | case4 => exact onFirst_ne_nil _ _
  | case5 => simp
  | case6 => exact onFirst_ne_nil _ _

/-! ## Texts that are not cut -/

/-- Cutting leaves a text in one piece, whatever comes behind it. -/
def Whole (sep : Char) (u : List Char) : Prop :=
  ∀ s, cutUnescaped sep (u ++ s) = onFirst u (cutUnescaped sep s)

namespace Whole

variable {sep : Char} {u v : List Char}

theorem append (hu : Whole sep u) (hv : Whole sep v) : Whole sep (u ++ v) := by
  intro s
  rw [List.append_assoc, hu, hv, onFirst_append]

theorem escaped (c : Char) : Whole sep ['\\', c] := cutUnescaped_escaped sep c

theorem plain {c : Char} (hb : c ≠ '\\') (hc : c ≠ sep) : Whole sep [c] :=
  cutUnescaped_plain hb hc

theorem nil : Whole sep [] := by
  intro s
  cases h : cutUnescaped sep s with
  | nil => exact absurd h (cutUnescaped_ne_nil sep s)
  | cons p ps => simp [h, onFirst]

/-- A text without backslashes and separators. -/
theorem of_forall (h : ∀ c ∈ u, c ≠ '\\' ∧ c ≠ sep) : Whole sep u := by
  induction u with
  | nil => exact .nil
  | cons c u ih =>
    obtain ⟨hb, hc⟩ := h c List.mem_cons_self
    have hu := ih fun d hd => h d (List.mem_cons_of_mem c hd)
    exact (plain hb hc).append hu

/-- An escaped text is not cut at a separator that is escaped in it. -/
theorem escape (hsep : isSpecial sep = true) (s : List Char) :
    Whole sep (DistinguishedName.escape s) := by
  induction s with
  | nil => exact .nil
  | cons c s ih =>
    rw [DistinguishedName.escape]
    split
    · exact (escaped c).append ih
    · -- A character without an escape has no meaning, so it is no separator
      rename_i hc
      have hb : c ≠ '\\' := by rintro rfl; exact hc (by decide)
      have hne : c ≠ sep := by rintro rfl; exact hc hsep
      exact (plain hb hne).append ih

/-- A whole text by itself is one piece. -/
theorem cut (hu : Whole sep u) : cutUnescaped sep u = [u] := by
  have h := hu []
  rw [List.append_nil] at h
  rw [h]
  simp [cutUnescaped, onFirst]

/-- A whole text before a separator is the first piece. -/
theorem cut_append (hu : Whole sep u) (hsep : sep ≠ '\\') (s : List Char) :
    cutUnescaped sep (u ++ sep :: s) = u :: cutUnescaped sep s := by
  rw [hu, cutUnescaped_sep hsep, onFirst, List.append_nil]

end Whole

/-! ## Attributes -/

/-- A key has no character that cutting or reading gives a meaning to. -/
def IsKey (key : List Char) : Prop := ∀ c ∈ key, isSpecial c = false

theorem IsKey.whole {key : List Char} (h : IsKey key) {sep : Char} (hsep : isSpecial sep = true) :
    Whole sep key := by
  refine .of_forall fun c hc => ⟨?_, ?_⟩
  · rintro rfl
    exact absurd (h _ hc) (by decide)
  · rintro rfl
    exact absurd (h _ hc) (by simp [hsep])

theorem isKey_of_mem_keys : ∀ key ∈ keys, IsKey key := by
  simp [keys, IsKey, isSpecial]

/-- An attribute is not cut at a comma. -/
theorem whole_writeAttribute {key : List Char} (h : IsKey key) (value : String) :
    Whole ',' (writeAttribute key value) := by
  have hequals : Whole ',' ['='] := .plain (by decide) (by decide)
  exact (h.whole (by decide)).append (hequals.append (.escape (by decide) value.toList))

/-- An attribute reads back, whatever its value is. -/
theorem readAttribute?_writeAttribute {key : List Char} (h : IsKey key) (value : String) :
    readAttribute? (writeAttribute key value) = some (key, value) := by
  have hkey : Whole '=' key := h.whole (by decide)
  have hvalue : Whole '=' (escape value.toList) := .escape (by decide) value.toList
  -- The only cut is that behind the key
  have hcut : cutUnescaped '=' (writeAttribute key value) = [key, escape value.toList] := by
    rw [writeAttribute, hkey.cut_append (by decide), hvalue.cut]
  rw [readAttribute?, hcut]
  simp [unescape_escape]

/-! ## The whole form -/

/-- Whole texts with commas and spaces between them are cut at these commas. -/
theorem cutUnescaped_intercalate {w : List Char} {ws : List (List Char)}
    (h : ∀ u ∈ w :: ws, Whole ',' u) :
    cutUnescaped ',' ([',', ' '].intercalate (w :: ws)) = w :: ws.map (' ' :: ·) := by
  induction ws generalizing w with
  | nil => simpa using (h w List.mem_cons_self).cut
  | cons w' ws ih =>
    have hw : Whole ',' w := h w List.mem_cons_self
    have hspace : Whole ',' [' '] := .plain (by decide) (by decide)
    have hrest := ih fun u hu => h u (List.mem_cons_of_mem w hu)
    calc cutUnescaped ',' ([',', ' '].intercalate (w :: w' :: ws))
        = cutUnescaped ',' (w ++ ',' :: ([' '] ++ [',', ' '].intercalate (w' :: ws))) := by
          rw [List.intercalate_cons_cons]
          simp
      _ = w :: onFirst [' '] (cutUnescaped ',' ([',', ' '].intercalate (w' :: ws))) := by
          rw [hw.cut_append (by decide), hspace]
      _ = w :: (w' :: ws).map (' ' :: ·) := by
          rw [hrest]
          rfl

/-- A reader that undoes a writer on each item undoes it on a list. -/
private theorem mapM_map_eq_some {α β : Type} {write : α → β} {read : β → Option α} {l : List α}
    (h : ∀ a ∈ l, read (write a) = some a) : (l.map write).mapM read = some l := by
  induction l with
  | nil => rfl
  | cons a l ih =>
    have hl := ih fun b hb => h b (List.mem_cons_of_mem a hb)
    rw [List.map_cons, List.mapM_cons, h a List.mem_cons_self, hl]
    rfl

/-- The attributes of a name, each with its key. -/
def attributes (dn : DistinguishedName) : List (List Char × String) := keys.zip dn.values

theorem isKey_of_mem_attributes {dn : DistinguishedName} {a : List Char × String}
    (h : a ∈ dn.attributes) : IsKey a.1 :=
  isKey_of_mem_keys a.1 (List.of_mem_zip h).1

theorem read?_chars (dn : DistinguishedName) : read? dn.chars = some dn := by
  let write (a : List Char × String) : List Char := writeAttribute a.1 a.2
  obtain ⟨first, rest, hattributes⟩ : ∃ first rest, dn.attributes = first :: rest := ⟨_, _, rfl⟩
  have hchars : dn.chars = [',', ' '].intercalate (write first :: rest.map write) := by
    rw [← List.map_cons, ← hattributes]
    rfl
  have hwhole : ∀ u ∈ write first :: rest.map write, Whole ',' u := by
    rw [← List.map_cons, ← hattributes]
    intro u hu
    obtain ⟨a, ha, rfl⟩ := List.mem_map.mp hu
    exact whole_writeAttribute (isKey_of_mem_attributes ha) a.2
  have hspaces : ((rest.map write).map (' ' :: ·)).mapM dropSpace? = some (rest.map write) :=
    mapM_map_eq_some fun _ _ => rfl
  have hread : (write first :: rest.map write).mapM readAttribute? = some dn.attributes := by
    rw [← List.map_cons, ← hattributes]
    exact mapM_map_eq_some fun a ha =>
      readAttribute?_writeAttribute (isKey_of_mem_attributes ha) a.2
  rw [read?, hchars, cutUnescaped_intercalate hwhole]
  simp only [hspaces, hread, bind, Option.bind]
  rfl

/-- A value that looks like further attributes stays one value. -/
example : read? (ofHost "a, OU=x\\").chars = some (ofHost "a, OU=x\\") := by
  decide +kernel

end Keysmith.DistinguishedName
