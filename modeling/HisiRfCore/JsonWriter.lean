import HisiRfCore.JsonGrammar

/-!
# Written JSON values and their contents

A writer puts texts between quotation marks and brackets and commas between texts;
what it writes is derived by the grammar when its parts are. The contents of a value
are taken out again by member name and by kind.
-/

namespace HisiRfCore.JsonWriter

open JsonGrammar

/-- Text between quotation marks. -/
def quoted (t : List Char) : List Char := '"' :: (t ++ ['"'])

/-- Texts with commas between them. -/
def commas (texts : List (List Char)) : List Char := [','].intercalate texts

/-- Decimal text of a natural number. -/
def decimal (n : ℕ) : List Char := Nat.toDigits 10 n

section Commas

variable {texts : List (List Char)} {t u : List Char}

@[simp] theorem commas_nil : commas [] = [] := rfl

@[simp] theorem commas_singleton : commas [t] = t := List.intercalate_singleton

@[simp] theorem commas_cons_cons : commas (t :: u :: texts) = t ++ ',' :: commas (u :: texts) := by
  rw [commas, List.intercalate_cons_cons, List.append_assoc]
  rfl

/-- A further text stands after a comma. -/
theorem commas_concat (h : texts ≠ []) : commas (texts ++ [u]) = commas texts ++ ',' :: u := by
  induction texts with
  | nil => exact absurd rfl h
  | cons t texts ih =>
    cases texts with
    | nil => simp
    | cons v texts =>
      have htail := ih (List.cons_ne_nil v texts)
      rw [List.cons_append] at htail
      rw [List.cons_append, List.cons_append, commas_cons_cons, commas_cons_cons, htail,
        List.append_assoc, List.cons_append]

end Commas

section Tokens

/-- No character needs an escape. -/
def Plain (t : List Char) : Prop := ∀ c ∈ t, Unescaped c

instance (t : List Char) : Decidable (Plain t) := List.decidableBAll Unescaped t

/-- Unescaped characters stand for themselves. -/
theorem plain_characters {t : List Char} (ht : Plain t) :
    Characters t (pointsOf t) := by
  induction t with
  | nil => exact .nil
  | cons c t ih =>
    have htail := ih fun d hd => ht d (List.mem_cons_of_mem c hd)
    exact .cons (.unescaped (ht c List.mem_cons_self)) htail

/-- A quoted text without escapes is a string. -/
theorem quoted_string {t : List Char} (ht : Plain t) :
    Derives (quoted t) (.value (.string (pointsOf t))) :=
  .string (.mk (plain_characters ht))

theorem digits_decimal (n : ℕ) : Digits (decimal n) :=
  ⟨Nat.toDigits_ne_nil, fun _ hc => Nat.isDigit_of_mem_toDigits (by decide) (by decide) hc⟩

/-- The decimal text of a positive number has no leading zero. -/
theorem decimal_leading (n : ℕ) (hn : 0 < n) : ∃ c t, decimal n = c :: t ∧ c ≠ '0' := by
  induction n using Nat.strongRecOn with
  | ind n ih =>
    by_cases hsmall : n < 10
    · refine ⟨n.digitChar, [], Nat.toDigits_of_lt_base hsmall, ?_⟩
      rw [Ne, Nat.digitChar_eq_zero]
      omega
    · obtain ⟨c, t, htext, hc⟩ := ih (n / 10) (by omega) (by omega)
      refine ⟨c, t ++ [(n % 10).digitChar], ?_, hc⟩
      rw [decimal, Nat.toDigits_of_base_le (by decide) (by omega), ← decimal, htext,
        List.cons_append]

theorem whole_decimal (n : ℕ) : Whole (decimal n) := by
  by_cases hn : n = 0
  · subst hn
    exact .zero
  · obtain ⟨c, t, htext, hc⟩ := decimal_leading n (by omega)
    have hdigits := digits_decimal n
    rw [htext] at hdigits ⊢
    exact .leading hc hdigits

/-- A decimal text is a number. -/
theorem decimal_number (n : ℕ) : Derives (decimal n) (.value (.number (decimal n))) := by
  have htext := NumberText.mk .absent (whole_decimal n) .absent .absent
  rw [List.append_nil, List.append_nil, List.nil_append] at htext
  exact .number htext

/-- Text of a truth value. -/
def truth (value : Bool) : List Char := if value then ['t', 'r', 'u', 'e'] else ['f', 'a', 'l', 's', 'e']

theorem truth_boolean (value : Bool) : Derives (truth value) (.value (.boolean value)) := by
  cases value with
  | true => exact .yes
  | false => exact .no

end Tokens

section Brackets

/-- A value with the text written for it. -/
structure Written where
  /-- Characters written. -/
  text : List Char
  /-- Value they stand for. -/
  value : Json
  /-- The grammar derives the value from the text. -/
  derived : Derives text (.value value)

/-- A string without escapes. -/
def Written.plain (t : List Char) (ht : Plain t) : Written :=
  ⟨quoted t, .string (pointsOf t), quoted_string ht⟩

/-- A natural number in decimal. -/
def Written.number (n : ℕ) : Written := ⟨decimal n, .number (decimal n), decimal_number n⟩

/-- A truth value. -/
def Written.boolean (value : Bool) : Written := ⟨truth value, .boolean value, truth_boolean value⟩

/-- The absent value. -/
def Written.null : Written := ⟨['n', 'u', 'l', 'l'], .null, .null⟩

/-- Value of a member with its name. -/
structure Member where
  /-- Name, written as it is. -/
  name : List Char
  /-- No character of the name needs an escape. -/
  plain : Plain name
  /-- Value written after the colon. -/
  content : Written

/-- Text of a member. -/
def Member.text (m : Member) : List Char := quoted m.name ++ ':' :: m.content.text

/-- Name and value of a member. -/
def Member.entry (m : Member) : List ℕ × Json := (pointsOf m.name, m.content.value)

theorem Member.named (m : Member) :
    Named (quoted m.name ++ [':']) (pointsOf m.name) :=
  .mk (.mk (plain_characters m.plain)) space_nil space_nil

/-- Items with commas between them are the entries of an array. -/
theorem items_written (w : Written) (ws : List Written) :
    Derives (commas ((w :: ws).map Written.text)) (.items ((w :: ws).map Written.value)) := by
  induction ws generalizing w with
  | nil =>
    have hlast := Derives.lastItem space_nil w.derived space_nil
    rw [List.nil_append, List.append_nil] at hlast
    rw [List.map_singleton, List.map_singleton, commas_singleton]
    exact hlast
  | cons v ws ih =>
    exact .nextItem space_nil w.derived space_nil (ih v)

/-- Members with commas between them are the entries of an object. -/
theorem members_written (m : Member) (ms : List Member) :
    Derives (commas ((m :: ms).map Member.text)) (.members ((m :: ms).map Member.entry)) := by
  induction ms generalizing m with
  | nil =>
    have hlast := Derives.lastMember space_nil m.named m.content.derived space_nil
    rw [List.nil_append, List.append_nil, List.append_assoc] at hlast
    rw [List.map_singleton, List.map_singleton, commas_singleton]
    exact hlast
  | cons n ms ih =>
    have hnext := Derives.nextMember space_nil m.named m.content.derived space_nil (ih n)
    simp only [List.nil_append, List.append_assoc, List.cons_append] at hnext
    rw [List.map_cons, List.map_cons, commas_cons_cons, Member.text, List.append_assoc]
    exact hnext

/-- Items between square brackets are an array. -/
def Written.array (ws : List Written) : Written where
  text := '[' :: (commas (ws.map Written.text) ++ [']'])
  value := .array (ws.map Written.value)
  derived := match ws with
    | [] => .emptyArray space_nil
    | w :: ws => .array (items_written w ws)

/-- Members between curly brackets are an object. -/
def Written.object (ms : List Member) : Written where
  text := '{' :: (commas (ms.map Member.text) ++ ['}'])
  value := .object (ms.map Member.entry)
  derived := match ms with
    | [] => .emptyObject space_nil
    | m :: ms => .object (members_written m ms)

end Brackets

section Contents

variable {α : Type}

/-- Value of the first member of a name. -/
def member (name : List Char) : Json → Option Json
  | .object members => (members.find? fun entry => entry.1 = pointsOf name).map Prod.snd
  | _ => none

/-- Characters of a string. -/
def text : Json → Option (List Char)
  | .string points => characters points
  | _ => none

/-- Natural number of a run of digits. -/
def natural : Json → Option ℕ
  | .number lexeme =>
    if lexeme.all Char.isDigit then some (Nat.ofDigitChars 10 lexeme 0) else none
  | _ => none

/-- Truth value. -/
def boolean : Json → Option Bool
  | .boolean value => some value
  | _ => none

/-- Contents that may be absent. -/
def nullable (f : Json → Option α) : Json → Option (Option α)
  | .null => some none
  | value => (f value).map some

/-- Contents of every item of an array. -/
def list (f : Json → Option α) : Json → Option (List α)
  | .array items => items.mapM f
  | _ => none

/-- Characters written as a string are its contents. -/
theorem text_string (t : List Char) : text (.string (pointsOf t)) = some t :=
  characters_pointsOf t

/-- The decimal text of a number gives the number back. -/
theorem natural_decimal (n : ℕ) : natural (.number (decimal n)) = some n := by
  have hall : (decimal n).all Char.isDigit = true := List.all_eq_true.mpr (digits_decimal n).2
  rw [natural, if_pos hall]
  exact congrArg some Nat.ofDigitChars_ten_toDigits

end Contents

end HisiRfCore.JsonWriter
