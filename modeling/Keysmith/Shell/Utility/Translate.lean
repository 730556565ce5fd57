import Keysmith.Shell.CharSet

/-! # Translating characters

`tr` replaces characters of its input, deletes some, or drops repetitions.  What it does is
settled by one or two sets before anything is read. -/

namespace Keysmith.Shell.Utility

namespace Translate

open CharSet (Element)

/-- What is to be done. -/
structure Request where
  /-- Whether the first set stands for all other characters. -/
  complements : Bool
  deletes : Bool
  squeezes : Bool
  /-- Whether the first set is cut to the length of the second one. -/
  truncates : Bool

/-- The options. -/
def known : Known where
  letters := "AcCdst".toList.map (·, .nothing)
  words := [⟨"complement", .nothing, "c"⟩, ⟨"delete", .nothing, "d"⟩,
    ⟨"squeeze-repeats", .nothing, "s"⟩, ⟨"truncate-set1", .nothing, "t"⟩] ++ common

/-- Take an option. -/
def take (r : Request) (g : Given) : Except Refusal Request :=
  match g.meaning with
  | "c" | "C" => .ok { r with complements := true }
  | "d" => .ok { r with deletes := true }
  | "s" => .ok { r with squeezes := true }
  | "t" => .ok { r with truncates := true }
  | _ => .ok r

/-- What is wrong with the number of the operands. -/
def misuse? (r : Request) (operands : List String) : Option Refusal :=
  let least := if r.deletes == r.squeezes then 2 else 1
  let most := if r.deletes && !r.squeezes then 1 else 2
  match operands with
  | [] => some (.misuse "missing operand")
  | operands =>
    if operands.length < least then
      let shown := Quoted.plain (operands.getLast?.getD "")
      let reason :=
        if r.squeezes then
          "Two strings must be given when both deleting and squeezing repeats."
        else "Two strings must be given when translating."
      some ⟨s!"missing operand after {shown}", [reason], true⟩
    else match operands[most]? with
      | none => none
      | some extra =>
        let reason :=
          if operands.length = 2 then
            ["Only one string may be given when deleting without squeezing repeats."]
          else []
        some ⟨s!"extra operand {Quoted.plain extra}", reason, true⟩

/-! ## Fitting the sets -/

/-- Whether an element is repeated as often as is needed. -/
def isOpen : Element → Bool
  | .repeated _ none => true
  | _ => false

/-- How many characters elements have. -/
def length (es : List Element) : Nat :=
  (es.map fun
    | .repeated _ count => count.getD 0
    | e => e.chars.length).foldl (· + ·) 0

/-- Elements in which what is repeated as often as is needed fills a length. -/
def filled (wanted : Nat) (es : List Element) : List Element :=
  let missing := wanted - length es
  es.map fun
    | .repeated c none => .repeated c (some missing)
    | e => e

/-- Whether an element is one of the classes of letters that have another case. -/
def hasCase : Element → Bool
  | .class_ name => name == "lower" || name == "upper"
  | _ => false

/-- Whether an element is a class. -/
def isClass : Element → Bool
  | .class_ _ => true
  | _ => false

/-- Whether an element is a character that stands for those that count the same. -/
def isSame : Element → Bool
  | .same _ => true
  | _ => false

/-- A character of a set, with the element that it is the first character of. -/
structure Slot where
  char : Char
  /-- The class of letters that it belongs to. -/
  case : Option String
  isFirst : Bool

/-- The slots of an element. -/
def slotsOf (e : Element) : List Slot :=
  let case : Option String := match e with
    | .class_ name => if hasCase e then some name else none
    | _ => none
  match e.chars with
  | [] => []
  | c :: rest => ⟨c, case, true⟩ :: rest.map (⟨·, case, false⟩)

/-- All slots of elements. -/
def slots (es : List Element) : List Slot := es.flatMap slotsOf

/-- The slots behind an element that has begun. -/
def behindElement (ss : List Slot) : List Slot := ss.dropWhile (!·.isFirst)

/-- Whether every class of letters of the second set stands across from one of the first,
    and how many characters of both sets such classes have besides one each.  The fuel is
    the number of slots. -/
def aligned? (fuel surplus : Nat) (first second : List Slot) : Option Nat :=
  match fuel, second with
  | 0, _ => some surplus
  | _, [] => some surplus
  | fuel + 1, b :: second =>
    match b.case, first with
    | none, [] => some surplus
    | none, _ :: first => aligned? fuel surplus first second
    | some _, a :: first =>
      if a.isFirst && a.case.isSome then
        aligned? fuel (surplus + 25) (behindElement first) (behindElement second)
      else none
    | some _, [] => none

/-- The last character of a set, which is repeated if the set is too short. -/
def lastChar? (es : List Element) : Except String (Option Char) :=
  match es.getLast? with
  | some (.class_ _) =>
    .error ("when translating with string1 longer than string2,\n" ++
      "the latter string must not end with a character class")
  | some (.repeated c _) => .ok (some c)
  | some e => .ok e.chars.getLast?
  | none => .ok none

/-- The second set as it is used, or what is wrong with the sets. -/
def fitted (r : Request) (translates : Bool) (first : List Element)
    (second : Option (List Element)) : Except String (List Element) := do
  if first.any isOpen then
    .error "the [c*] repeat construct may not appear in string1"
  match second with
  | none => return []
  | some second =>
    let wanted :=
      if r.complements then (CharSet.complement (CharSet.chars first)).length else length first
    if 1 < (second.filter isOpen).length then
      .error "only one [c*] repeat construct may appear in string2"
    let full := filled wanted second
    if !translates then
      if second.any isOpen then
        .error "the [c*] construct may appear in string2 only when translating"
      return full
    if second.any isSame then
      .error "[=c=] expressions may not appear in string2 when translating"
    if second.any fun e => isClass e && !hasCase e then
      .error ("when translating, the only character classes that may appear in\n" ++
        "string2 are 'upper' and 'lower'")
    let surplus ←
      if r.complements || !second.any isClass then .ok 0
      else
        let (a, b) := (slots first, slots full)
        match aligned? (a.length + b.length + 1) 0 a b with
        | some n => .ok n
        | none => .error "misaligned [:upper:] and/or [:lower:] construct"
    let (wanted, have_) := (wanted - surplus, length full - surplus)
    let full ←
      if wanted ≤ have_ || r.truncates then .ok full
      else if have_ = 0 then .error "when not truncating set1, string2 must be non-empty"
      else match ← lastChar? second with
        | some c => .ok (full ++ [.repeated c (some (wanted - have_))])
        | none => .ok full
    let isUniform := match CharSet.chars full with
      | [] => false
      | c :: rest => rest.all (· == c)
    if r.complements && first.any isClass && !isUniform then
      .error ("when translating with complemented character classes,\n" ++
        "string2 must map all characters in the domain to one")
    return full

/-! ## Translating -/

/-- A table of characters by their numbers. -/
abbrev Table (α : Type) := Array α

/-- The table that changes nothing. -/
def unchanged : Table Char := CharSet.everything.toArray

/-- Enter what a character becomes. -/
def enter (t : Table Char) (c becomes : Char) : Table Char := t.setIfInBounds c.toNat becomes

/-- Enter what the characters of two sets become, pair by pair.  The fuel is the number of
    slots. -/
def pairs (fuel : Nat) (t : Table Char) (first second : List Slot) : Table Char :=
  match fuel, first, second with
  | fuel + 1, a :: first, b :: second =>
    match a.case, b.case with
    | some "lower", some "upper" =>
      let t := (CharSet.classChars "lower").foldl (fun t c => enter t c c.toUpper) t
      pairs fuel t (behindElement first) (behindElement second)
    | some "upper", some "lower" =>
      let t := (CharSet.classChars "upper").foldl (fun t c => enter t c c.toLower) t
      pairs fuel t (behindElement first) (behindElement second)
    | _, _ => pairs fuel (enter t a.char b.char) first second
  | _, _, _ => t

/-- What each character becomes. -/
def table (r : Request) (first second : List Element) : Table Char :=
  if r.complements then
    ((CharSet.complement (CharSet.chars first)).zip (CharSet.chars second)).foldl
      (fun t (c, becomes) => enter t c becomes) unchanged
  else
    let (a, b) := (slots first, slots second)
    pairs (a.length + b.length) unchanged a b

/-- Which characters are in a set. -/
def members (complements : Bool) (es : List Element) : Table Bool :=
  let cs := CharSet.chars es
  (CharSet.everything.map fun c => cs.contains c != complements).toArray

/-- What is done with the characters of the input. -/
structure Plan where
  deleted : Option (Table Bool)
  changed : Option (Table Char)
  squeezed : Option (Table Bool)

/-- The plan for a request. -/
def plan (r : Request) (first : List Element) (second : Option (List Element)) : Plan :=
  let own := members r.complements first
  match second with
  | none =>
    if r.squeezes then ⟨none, none, some own⟩ else ⟨some own, none, none⟩
  | some second =>
    let squeezed := if r.squeezes then some (members false second) else none
    if r.deletes then ⟨some own, none, squeezed⟩
    else ⟨none, some (table r first second), squeezed⟩

/-- Drop characters of a set that follow themselves, given the last one. -/
def squeeze (set : Table Bool) (last : Option Char) (done : List Char) :
    List Char → List Char
  | [] => done.reverse
  | c :: rest =>
    if last == some c && set.getD c.toNat false then squeeze set last done rest
    else squeeze set (some c) (c :: done) rest

/-- Carry out a plan. -/
def Plan.carryOut (p : Plan) (cs : List Char) : List Char :=
  let cs := match p.deleted with
    | some set => cs.filter fun c => !set.getD c.toNat false
    | none => cs
  let cs := match p.changed with
    | some t => cs.map fun c => t.getD c.toNat c
    | none => cs
  match p.squeezed with
  | some set => squeeze set none [] cs
  | none => cs

/-- Read all input. -/
def readAll : ShellM (Bytes × Option OsError) := do
  let s ← get
  let id := (s.handle? 0).getD s.system.files.size
  ShellM.repeating (fun (blocks : List Bytes) => do
    let s ← get
    match s.system.read id 1048576 with
    | .error e => return .inr (blocks.reverse.flatten, some e)
    | .ok (bs, system) =>
      set { s with system := system }
      if bs.isEmpty then return .inr (blocks.reverse.flatten, none)
      else return .inl (bs :: blocks))
    (fun blocks => (blocks.reverse.flatten, none)) 100 []

/-- Read the sets. -/
def sets (name : String) (operands : List String) : ShellM (Except String (List (List Element))) :=
  match operands with
  | [] => return .ok []
  | operand :: rest => do
    let (warnings, found) := CharSet.read operand
    warnings.forM (complain name ·)
    match found with
    | .error e => return .error e
    | .ok es => return (← sets name rest).map (es :: ·)

/-- Translate the input. -/
def run (r : Request) (operands : List String) : Utility := fun name _ => do
  match misuse? r operands with
  | some refusal => refuse name refusal
  | none =>
    match ← sets name operands with
    | .error e => refuse name (.plain e)
    | .ok found =>
      let (first, second) := (found.headD [], found[1]?)
      match fitted r (!r.deletes && second.isSome) first second with
      | .error e => refuse name (.plain e)
      | .ok full =>
        let (bs, failure) ← readAll
        let p := plan r first (second.map fun _ => full)
        ShellM.print (String.ofList (p.carryOut (bs.map Text.Octets.ofByte)))
        match failure with
        | none => finish name 0
        | some e => refuse name (.plain s!"read error: {e.description}")

end Translate

/-- Translate, delete or squeeze characters. -/
def tr : Utility :=
  withOptions Translate.known true ⟨false, false, false, false⟩ Translate.take Translate.run

end Keysmith.Shell.Utility
