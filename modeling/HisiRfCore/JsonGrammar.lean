import Mathlib.Data.List.Basic

/-!
# The grammar of JSON texts

The productions of RFC 8259 as a relation between a text and the value it stands
for. A number keeps its characters; a string keeps the code points its characters
and escapes name, one for each half of a surrogate pair.
-/

namespace HisiRfCore.JsonGrammar

/-- JSON value. -/
inductive Json
  | null
  | boolean (value : Bool)
  | number (lexeme : List Char)
  | string (points : List ℕ)
  | array (items : List Json)
  | object (members : List (List ℕ × Json))

/-- What a text stands for: one value, or the entries between two brackets. -/
inductive Node
  | value (value : Json)
  | items (items : List Json)
  | members (members : List (List ℕ × Json))

/-- Insignificant characters around a value. -/
def isSpace (c : Char) : Bool := c == ' ' || c == '\t' || c == '\n' || c == '\r'

/-- A possibly empty run of insignificant characters. -/
def Space (t : List Char) : Prop := ∀ c ∈ t, isSpace c = true

/-- The empty run is insignificant. -/
theorem space_nil : Space [] := fun _ hc => absurd hc List.not_mem_nil

section Numbers

/-- One or more digits. -/
def Digits (t : List Char) : Prop := t ≠ [] ∧ ∀ c ∈ t, c.isDigit = true

/-- Optional minus sign. -/
inductive Minus : List Char → Prop
  | absent : Minus []
  | present : Minus ['-']

/-- Integer part, with no leading zero. -/
inductive Whole : List Char → Prop
  | zero : Whole ['0']
  | leading {c : Char} {t : List Char} (first : c ≠ '0') (digits : Digits (c :: t)) : Whole (c :: t)

/-- Optional fraction. -/
inductive Fraction : List Char → Prop
  | absent : Fraction []
  | present {d : List Char} (digits : Digits d) : Fraction ('.' :: d)

/-- Optional sign of an exponent. -/
inductive ExponentSign : List Char → Prop
  | absent : ExponentSign []
  | plus : ExponentSign ['+']
  | minus : ExponentSign ['-']

/-- Optional exponent. -/
inductive Exponent : List Char → Prop
  | absent : Exponent []
  | present {e : Char} {s d : List Char} (mark : e = 'e' ∨ e = 'E') (sign : ExponentSign s)
      (digits : Digits d) : Exponent (e :: (s ++ d))

/-- Text of a number. -/
inductive NumberText : List Char → Prop
  | mk {m w f e : List Char} (minus : Minus m) (whole : Whole w) (fraction : Fraction f)
      (exponent : Exponent e) : NumberText (m ++ (w ++ (f ++ e)))

end Numbers

section Strings

/-- Code point of an escape of one letter. -/
def shortEscape : Char → Option ℕ
  | '"' => some 0x22
  | '\\' => some 0x5c
  | '/' => some 0x2f
  | 'b' => some 0x08
  | 'f' => some 0x0c
  | 'n' => some 0x0a
  | 'r' => some 0x0d
  | 't' => some 0x09
  | _ => none

/-- Value of a hexadecimal digit of either case. -/
def hexValue (c : Char) : Option ℕ :=
  if '0' ≤ c ∧ c ≤ '9' then some (c.toNat - '0'.toNat)
  else if 'a' ≤ c ∧ c ≤ 'f' then some (c.toNat - 'a'.toNat + 10)
  else if 'A' ≤ c ∧ c ≤ 'F' then some (c.toNat - 'A'.toNat + 10)
  else none

/-- Value of four hexadecimal digits. -/
def hexPoint (a b c d : Char) : Option ℕ := do
  let a ← hexValue a
  let b ← hexValue b
  let c ← hexValue c
  let d ← hexValue d
  pure (((a * 16 + b) * 16 + c) * 16 + d)

/-- Characters a string holds unescaped. -/
def Unescaped (c : Char) : Prop := 0x20 ≤ c.toNat ∧ c ≠ '"' ∧ c ≠ '\\'

instance (c : Char) : Decidable (Unescaped c) := inferInstanceAs (Decidable (_ ∧ _))

/-- One character of a string, as itself or as an escape. -/
inductive StringChar : List Char → ℕ → Prop
  | unescaped {c : Char} (h : Unescaped c) : StringChar [c] c.toNat
  | short {c : Char} {point : ℕ} (h : shortEscape c = some point) : StringChar ['\\', c] point
  | unicode {a b c d : Char} {point : ℕ} (h : hexPoint a b c d = some point) :
      StringChar ['\\', 'u', a, b, c, d] point

/-- Characters between two quotation marks. -/
inductive Characters : List Char → List ℕ → Prop
  | nil : Characters [] []
  | cons {t u : List Char} {point : ℕ} {points : List ℕ} (head : StringChar t point)
      (tail : Characters u points) : Characters (t ++ u) (point :: points)

/-- Text of a string. -/
inductive Quoted : List Char → List ℕ → Prop
  | mk {t : List Char} {points : List ℕ} (body : Characters t points) :
      Quoted ('"' :: (t ++ ['"'])) points

end Strings

/-- Name of a member with the colon after it. -/
inductive Named : List Char → List ℕ → Prop
  | mk {q e s : List Char} {name : List ℕ} (text : Quoted q name) (before : Space e)
      (after : Space s) : Named (q ++ (e ++ ':' :: s)) name

/-- The productions for values and for the entries of arrays and objects. -/
inductive Derives : List Char → Node → Prop
  | null : Derives ['n', 'u', 'l', 'l'] (.value .null)
  | yes : Derives ['t', 'r', 'u', 'e'] (.value (.boolean true))
  | no : Derives ['f', 'a', 'l', 's', 'e'] (.value (.boolean false))
  | number {t : List Char} (text : NumberText t) : Derives t (.value (.number t))
  | string {t : List Char} {points : List ℕ} (text : Quoted t points) :
      Derives t (.value (.string points))
  | emptyArray {s : List Char} (space : Space s) : Derives ('[' :: (s ++ [']'])) (.value (.array []))
  | array {t : List Char} {items : List Json} (entries : Derives t (.items items)) :
      Derives ('[' :: (t ++ [']'])) (.value (.array items))
  | emptyObject {s : List Char} (space : Space s) :
      Derives ('{' :: (s ++ ['}'])) (.value (.object []))
  | object {t : List Char} {members : List (List ℕ × Json)} (entries : Derives t (.members members)) :
      Derives ('{' :: (t ++ ['}'])) (.value (.object members))
  | lastItem {s t e : List Char} {v : Json} (before : Space s) (item : Derives t (.value v))
      (after : Space e) : Derives (s ++ (t ++ e)) (.items [v])
  | nextItem {s t e u : List Char} {v : Json} {items : List Json} (before : Space s)
      (item : Derives t (.value v)) (after : Space e) (rest : Derives u (.items items)) :
      Derives (s ++ (t ++ (e ++ ',' :: u))) (.items (v :: items))
  | lastMember {s k t e : List Char} {name : List ℕ} {v : Json} (before : Space s)
      (key : Named k name) (item : Derives t (.value v)) (after : Space e) :
      Derives (s ++ ((k ++ t) ++ e)) (.members [(name, v)])
  | nextMember {s k t e u : List Char} {name : List ℕ} {v : Json}
      {members : List (List ℕ × Json)} (before : Space s) (key : Named k name)
      (item : Derives t (.value v)) (after : Space e) (rest : Derives u (.members members)) :
      Derives (s ++ ((k ++ t) ++ (e ++ ',' :: u))) (.members ((name, v) :: members))

/-- A whole text: one value with insignificant characters around it. -/
inductive JsonText : List Char → Json → Prop
  | mk {s t e : List Char} {v : Json} (before : Space s) (value : Derives t (.value v))
      (after : Space e) : JsonText (s ++ (t ++ e)) v

section Characters

/-- Code points with the two halves of each surrogate pair joined. -/
def joinSurrogates : List ℕ → List ℕ
  | high :: low :: rest =>
    if 0xd800 ≤ high ∧ high < 0xdc00 ∧ 0xdc00 ≤ low ∧ low < 0xe000 then
      (0x10000 + (high - 0xd800) * 0x400 + (low - 0xdc00)) :: joinSurrogates rest
    else high :: joinSurrogates (low :: rest)
  | points => points

/-- Character of a code point; a lone surrogate has none. -/
def charOf (point : ℕ) : Option Char :=
  if point.isValidChar then some (Char.ofNat point) else none

/-- Characters a string value stands for. -/
def characters (points : List ℕ) : Option (List Char) := (joinSurrogates points).mapM charOf

/-- Code points of characters. -/
def pointsOf (t : List Char) : List ℕ := t.map Char.toNat

theorem charOf_toNat (c : Char) : charOf c.toNat = some c := by
  have hvalid : c.toNat.isValidChar := c.valid
  rw [charOf, if_pos hvalid, Char.ofNat_toNat]

/-- Characters are never halves of a surrogate pair. -/
theorem joinSurrogates_pointsOf (t : List Char) : joinSurrogates (pointsOf t) = pointsOf t := by
  induction t with
  | nil => rfl
  | cons c t ih =>
    cases t with
    | nil => rfl
    | cons d u =>
      have hvalid : c.toNat < 0xd800 ∨ 0xdfff < c.toNat ∧ c.toNat < 0x110000 := c.valid
      have hpair : ¬ (0xd800 ≤ c.toNat ∧ c.toNat < 0xdc00 ∧ 0xdc00 ≤ d.toNat ∧
          d.toNat < 0xe000) := by omega
      rw [pointsOf, List.map_cons, List.map_cons, joinSurrogates, if_neg hpair]
      exact congrArg (c.toNat :: ·) ih

/-- The code points of characters stand for those characters. -/
theorem characters_pointsOf (t : List Char) : characters (pointsOf t) = some t := by
  rw [characters, joinSurrogates_pointsOf]
  induction t with
  | nil => rfl
  | cons c t ih =>
    rw [pointsOf, List.map_cons, List.mapM_cons, charOf_toNat]
    change (some c).bind (fun c => ((pointsOf t).mapM charOf).bind fun t => some (c :: t)) = _
    rw [ih]
    rfl

end Characters

end HisiRfCore.JsonGrammar
