import HisiRfCore.JsonGrammar

/-!
# Reading the tokens of JSON texts

A reader takes a token off the front of a text and returns what is left. Where the
text does not carry the token on, the readers of numbers and strings take exactly
what the grammar derives.
-/

namespace HisiRfCore.JsonTokens

open JsonGrammar

/-- Takes a value off the front of a text. -/
abbrev Reader (α : Type) := List Char → Option (α × List Char)

/-- The text is over or goes on with a character outside the class. -/
def Stops (f : Char → Bool) (rest : List Char) : Prop := ∀ c ∈ rest.head?, f c = false

/-- A text stops a class by its first character alone. -/
theorem stops_cons {f : Char → Bool} {c : Char} {rest : List Char} :
    Stops f (c :: rest) ↔ f c = false := by
  simp only [Stops, List.head?_cons, Option.mem_some_iff, forall_eq']

/-- The end of a text stops every class. -/
theorem stops_nil {f : Char → Bool} : Stops f [] := fun _ hc => absurd hc (Option.not_mem_none _)

theorem Stops.mono {f g : Char → Bool} {rest : List Char} (h : Stops f rest)
    (hfg : ∀ c, g c = true → f c = true) : Stops g rest := by
  intro c hc
  by_contra hg
  have hf := h c hc
  rw [hfg c (by simpa using hg)] at hf
  cases hf

section Runs

variable {f : Char → Bool} {t rest : List Char}

/-- The longest run is the one a text stops after. -/
theorem takeWhile_run (ht : ∀ c ∈ t, f c = true) (hr : Stops f rest) :
    (t ++ rest).takeWhile f = t := by
  rw [List.takeWhile_append_of_pos ht]
  cases rest with
  | nil => exact List.append_nil t
  | cons c rest =>
    rw [List.takeWhile_cons_of_neg (by rw [stops_cons.mp hr]; decide), List.append_nil]

/-- The rest begins where the longest run ends. -/
theorem dropWhile_run (ht : ∀ c ∈ t, f c = true) (hr : Stops f rest) :
    (t ++ rest).dropWhile f = rest := by
  rw [List.dropWhile_append_of_pos ht]
  cases rest with
  | nil => rfl
  | cons c rest =>
    exact List.dropWhile_cons_of_neg (by rw [stops_cons.mp hr]; decide)

end Runs

/-- Text after its insignificant characters. -/
def skip (t : List Char) : List Char := t.dropWhile isSpace

theorem skip_append {s rest : List Char} (hs : Space s) (hr : Stops isSpace rest) :
    skip (s ++ rest) = rest :=
  dropWhile_run hs hr

/-- Nothing is left of insignificant characters alone. -/
theorem skip_space {s : List Char} (hs : Space s) : skip s = [] := by
  have hskip := skip_append hs stops_nil
  rwa [List.append_nil] at hskip

section Numbers

/-- One lexeme after another. -/
def followed (p q : Reader (List Char)) : Reader (List Char) := fun t =>
  (p t).bind fun (a, t) => (q t).map fun (b, t) => (a ++ b, t)

theorem followed_reads {p q : Reader (List Char)} {a b rest : List Char}
    (hp : p (a ++ (b ++ rest)) = some (a, b ++ rest)) (hq : q (b ++ rest) = some (b, rest)) :
    followed p q ((a ++ b) ++ rest) = some (a ++ b, rest) := by
  simp only [followed, List.append_assoc, hp, Option.bind_some, hq, Option.map_some]

/-- The longest run of digits. -/
def readDigits : Reader (List Char) := fun t =>
  if t.takeWhile Char.isDigit = [] then none
  else some (t.takeWhile Char.isDigit, t.dropWhile Char.isDigit)

/-- Optional minus sign. -/
def readMinus : Reader (List Char)
  | '-' :: t => some (['-'], t)
  | t => some ([], t)

/-- Integer part, a lone zero or a run of digits. -/
def readWhole : Reader (List Char)
  | '0' :: t => some (['0'], t)
  | t => readDigits t

/-- Optional fraction. -/
def readFraction : Reader (List Char)
  | '.' :: t => (readDigits t).map fun (d, t) => ('.' :: d, t)
  | t => some ([], t)

/-- Optional sign of an exponent. -/
def readExponentSign : Reader (List Char)
  | '+' :: t => some (['+'], t)
  | '-' :: t => some (['-'], t)
  | t => some ([], t)

/-- Optional exponent. -/
def readExponent : Reader (List Char)
  | e :: t =>
    if e = 'e' ∨ e = 'E' then
      (followed readExponentSign readDigits t).map fun (d, t) => (e :: d, t)
    else some ([], e :: t)
  | [] => some ([], [])

/-- Text of a number. -/
def readNumber : Reader (List Char) :=
  followed readMinus (followed readWhole (followed readFraction readExponent))

/-- Characters that would carry a number on. -/
def numeral (c : Char) : Bool := c.isDigit || c == '.' || c == 'e' || c == 'E'

/-- What may follow a value. -/
abbrev Delimited (rest : List Char) : Prop := Stops numeral rest

variable {t rest : List Char}

theorem digits_read (ht : Digits t) (hr : Stops Char.isDigit rest) :
    readDigits (t ++ rest) = some (t, rest) := by
  rw [readDigits, takeWhile_run ht.2 hr, dropWhile_run ht.2 hr, if_neg ht.1]

theorem minus_read (ht : Minus t) (hr : Stops (· == '-') rest) :
    readMinus (t ++ rest) = some (t, rest) := by
  cases ht with
  | present => rfl
  | absent =>
    rw [List.nil_append, readMinus.eq_2]
    rintro u rfl
    exact absurd (stops_cons.mp hr) (by decide)

theorem whole_read (ht : Whole t) (hr : Stops Char.isDigit rest) :
    readWhole (t ++ rest) = some (t, rest) := by
  cases ht with
  | zero => rfl
  | leading first digits =>
    rw [readWhole.eq_2, digits_read digits hr]
    intro u hu
    exact first (List.cons.inj hu).1

theorem fraction_read (ht : Fraction t) (hr : Stops Char.isDigit rest)
    (hpoint : Stops (· == '.') rest) : readFraction (t ++ rest) = some (t, rest) := by
  cases ht with
  | present digits =>
    rw [List.cons_append, readFraction, digits_read digits hr, Option.map_some]
  | absent =>
    rw [List.nil_append, readFraction.eq_2]
    rintro u rfl
    exact absurd (stops_cons.mp hpoint) (by decide)

theorem exponentSign_read (ht : ExponentSign t) (hr : ∃ c ∈ rest.head?, c.isDigit = true) :
    readExponentSign (t ++ rest) = some (t, rest) := by
  cases ht with
  | plus => rfl
  | minus => rfl
  | absent =>
    obtain ⟨c, hc, hdigit⟩ := hr
    rw [List.nil_append, readExponentSign.eq_3]
    · rintro u rfl
      rw [← Option.some.inj hc] at hdigit
      exact absurd hdigit (by decide)
    · rintro u rfl
      rw [← Option.some.inj hc] at hdigit
      exact absurd hdigit (by decide)

/-- Digits begin with a digit. -/
theorem digits_head (ht : Digits t) : ∃ c ∈ (t ++ rest).head?, c.isDigit = true := by
  obtain ⟨hne, hall⟩ := ht
  cases t with
  | nil => exact absurd rfl hne
  | cons c t => exact ⟨c, rfl, hall c List.mem_cons_self⟩

theorem exponent_read (ht : Exponent t) (hr : Delimited rest) :
    readExponent (t ++ rest) = some (t, rest) := by
  cases ht with
  | present mark sign digits =>
    have hdigits := digits_read digits (hr.mono fun c hc => by simp [numeral, hc])
    rw [List.cons_append, readExponent, if_pos mark,
      followed_reads (exponentSign_read sign (digits_head digits)) hdigits, Option.map_some]
  | absent =>
    cases rest with
    | nil => rfl
    | cons c rest =>
      have hmark : ¬ (c = 'e' ∨ c = 'E') := by
        rintro (rfl | rfl) <;> exact absurd (stops_cons.mp hr) (by decide)
      rw [List.nil_append, readExponent, if_neg hmark]

/-- A class with no exponent mark is stopped by an exponent too. -/
theorem exponent_stops {f : Char → Bool} (ht : Exponent t) (hr : Stops f rest)
    (hlower : f 'e' = false) (hupper : f 'E' = false) : Stops f (t ++ rest) := by
  cases ht with
  | absent => exact hr
  | present mark sign digits =>
    obtain rfl | rfl := mark
    · exact stops_cons.mpr hlower
    · exact stops_cons.mpr hupper

/-- A class without the point is stopped by a fraction too. -/
theorem fraction_stops {f : Char → Bool} (ht : Fraction t) (hr : Stops f rest)
    (hpoint : f '.' = false) : Stops f (t ++ rest) := by
  cases ht with
  | absent => exact hr
  | present digits => exact stops_cons.mpr hpoint

/-- An integer part begins with a digit, so with no sign. -/
theorem whole_stops (ht : Whole t) : Stops (· == '-') (t ++ rest) := by
  cases ht with
  | zero => exact stops_cons.mpr (by decide)
  | @leading c t first digits =>
    have hdigit := digits.2 c List.mem_cons_self
    refine stops_cons.mpr (beq_eq_false_iff_ne.mpr ?_)
    rintro rfl
    exact absurd hdigit (by decide)

/-- The reader takes a number up to what cannot carry it on. -/
theorem number_read (ht : NumberText t) (hr : Delimited rest) :
    readNumber (t ++ rest) = some (t, rest) := by
  obtain ⟨minus, whole, fraction, exponent⟩ := ht
  rename_i m w f e
  have hdigit : Stops Char.isDigit rest := hr.mono fun c hc => by simp [numeral, hc]
  have hpoint : Stops (· == '.') rest := hr.mono fun c hc => by simp_all [numeral]
  have hexponent := exponent_read exponent hr
  have hfraction := fraction_read fraction
    (exponent_stops exponent hdigit (by decide) (by decide))
    (exponent_stops exponent hpoint (by decide) (by decide))
  have htail := followed_reads hfraction hexponent
  have hwhole : readWhole (w ++ ((f ++ e) ++ rest)) = some (w, (f ++ e) ++ rest) := by
    rw [List.append_assoc]
    exact whole_read whole (fraction_stops fraction
      (exponent_stops exponent hdigit (by decide) (by decide)) (by decide))
  have hminus : readMinus (m ++ ((w ++ (f ++ e)) ++ rest)) = some (m, (w ++ (f ++ e)) ++ rest) := by
    rw [List.append_assoc]
    exact minus_read minus (whole_stops whole)
  exact followed_reads hminus (followed_reads hwhole htail)

end Numbers

section Strings

/-- One character of a string, as itself or as an escape. -/
def readChar : Reader ℕ
  | '\\' :: 'u' :: a :: b :: c :: d :: t => (hexPoint a b c d).map fun point => (point, t)
  | '\\' :: c :: t => (shortEscape c).map fun point => (point, t)
  | c :: t => if Unescaped c then some (c.toNat, t) else none
  | [] => none

/-- Characters up to the closing quotation mark. -/
def readCharacters : ℕ → Reader (List ℕ)
  | 0, _ => none
  | fuel + 1, t =>
    if t.head? = some '"' then some ([], t.tail)
    else (readChar t).bind fun (point, t) =>
      (readCharacters fuel t).map fun (points, t) => (point :: points, t)

/-- Text of a string. -/
def readQuoted : Reader (List ℕ)
  | '"' :: t => readCharacters t.length t
  | _ => none

variable {t rest : List Char}

theorem char_read {point : ℕ} (ht : StringChar t point) :
    readChar (t ++ rest) = some (point, rest) := by
  cases ht with
  | unescaped h =>
    rename_i c
    have hc : c ≠ '\\' := h.2.2
    rw [List.singleton_append, readChar.eq_3, if_pos h]
    · rintro a b c d e rfl
      exact absurd rfl hc
    · rintro d e rfl
      exact absurd rfl hc
  | short h =>
    have hu : ∀ c, shortEscape c = some point → c ≠ 'u' := by
      rintro c hc rfl
      cases hc
    have hne := hu _ h
    rw [List.cons_append, List.singleton_append, readChar.eq_2, h, Option.map_some]
    rintro a b c d e rfl
    exact absurd rfl hne
  | unicode h =>
    rw [List.cons_append, List.cons_append, List.cons_append, List.cons_append, List.cons_append,
      List.singleton_append, readChar, h, Option.map_some]

/-- A character of a string does not begin with a quotation mark. -/
theorem char_opens {point : ℕ} (ht : StringChar t point) :
    ∃ c u, t = c :: u ∧ c ≠ '"' := by
  cases ht with
  | unescaped h => exact ⟨_, _, rfl, h.2.1⟩
  | short h => exact ⟨_, _, rfl, by decide⟩
  | unicode h => exact ⟨_, _, rfl, by decide⟩

theorem characters_read {points : List ℕ} (ht : Characters t points) :
    ∀ fuel, t.length < fuel →
      readCharacters fuel (t ++ '"' :: rest) = some (points, rest) := by
  induction ht with
  | nil =>
    intro fuel hfuel
    cases fuel with
    | zero => cases hfuel
    | succ fuel => rfl
  | @cons t u point points head tail ih =>
    intro fuel hfuel
    cases fuel with
    | zero => cases hfuel
    | succ fuel =>
      obtain ⟨c, v, rfl, hc⟩ := char_opens head
      have hopen : ¬ ((c :: v) ++ (u ++ '"' :: rest)).head? = some '"' := by
        rw [List.cons_append, List.head?_cons, Option.some_inj]
        exact hc
      have htail := ih fuel (by
        rw [List.length_append, List.length_cons] at hfuel
        omega)
      rw [List.append_assoc, readCharacters, if_neg hopen, char_read head]
      simp only [Option.bind_some, htail, Option.map_some]

theorem quoted_read {points : List ℕ} (ht : Quoted t points) :
    readQuoted (t ++ rest) = some (points, rest) := by
  obtain ⟨body⟩ := ht
  rw [List.cons_append, List.append_assoc, List.singleton_append, readQuoted]
  exact characters_read body _ (by
    rw [List.length_append, List.length_cons]
    omega)

end Strings

end HisiRfCore.JsonTokens
