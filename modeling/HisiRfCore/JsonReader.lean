import HisiRfCore.JsonTokens

/-!
# A reader of JSON texts

The reader takes one production after another off the front of a text. It reads
every text the grammar derives and returns the derived value, so a text stands for
at most one value.
-/

namespace HisiRfCore.JsonReader

open JsonGrammar JsonTokens

variable {α : Type}

section Entries

/-- Entries apart by commas up to a closing bracket. -/
def separated (p : Reader α) (close : Char) : ℕ → Reader (List α)
  | 0, _ => none
  | k + 1, t => (p (skip t)).bind fun (v, t) =>
    match skip t with
    | c :: t =>
      if c = ',' then (separated p close k t).map fun (vs, t) => (v :: vs, t)
      else if c = close then some ([v], t)
      else none
    | [] => none

/-- What follows an opening bracket, the closing one or the entries. -/
def bracketed (p : Reader α) (close : Char) (k : ℕ) : Reader (List α) := fun t =>
  if (skip t).head? = some close then some ([], (skip t).tail) else separated p close k t

/-- Name of a member with the colon after it. -/
def readNamed : Reader (List ℕ) := fun t =>
  (readQuoted t).bind fun (name, t) =>
    match skip t with
    | ':' :: t => some (name, skip t)
    | _ => none

/-- A member, its name before its value. -/
def readMember (p : Reader α) : Reader (List ℕ × α) := fun t =>
  (readNamed t).bind fun (name, t) => (p t).map fun (v, t) => ((name, v), t)

variable {p : Reader α} {close : Char} {k : ℕ} {s t e u rest : List Char} {v : α} {vs : List α}

/-- A closing bracket is neither insignificant nor a comma and carries no number on. -/
structure Closing (close : Char) : Prop where
  space : isSpace close = false
  numeral : numeral close = false
  comma : close ≠ ','

/-- An entry begins with a character that is neither insignificant nor the closing bracket. -/
def Begins (close : Char) (t : List Char) : Prop :=
  ∃ c u, t = c :: u ∧ isSpace c = false ∧ c ≠ close

theorem Begins.stops (h : Begins close t) : Stops isSpace (t ++ rest) := by
  obtain ⟨c, u, rfl, hc, -⟩ := h
  exact stops_cons.mpr hc

/-- Insignificant characters carry no number on. -/
theorem space_delimited (he : Space e) (hr : Delimited rest) : Delimited (e ++ rest) := by
  cases e with
  | nil => exact hr
  | cons c e =>
    have hc := he c List.mem_cons_self
    simp only [isSpace, Bool.or_eq_true, beq_iff_eq] at hc
    refine stops_cons.mpr ?_
    obtain ((rfl | rfl) | rfl) | rfl := hc <;> decide

theorem delimited_space (he : Space e) : Delimited e := by
  have hdelimited := space_delimited he stops_nil
  rwa [List.append_nil] at hdelimited

/-- The last entry is taken with its closing bracket. -/
theorem separated_last (hclose : Closing close) (hs : Space s) (ht : Begins close t) (he : Space e)
    (hp : ∀ rest, Delimited rest → p (t ++ rest) = some (v, rest)) :
    separated p close (k + 1) ((s ++ (t ++ e)) ++ close :: rest) = some ([v], rest) := by
  have hentry := hp (e ++ close :: rest) (space_delimited he (stops_cons.mpr hclose.numeral))
  rw [List.append_assoc, List.append_assoc, separated, skip_append hs ht.stops, hentry]
  simp only [Option.bind_some]
  rw [skip_append he (stops_cons.mpr hclose.space)]
  simp only [if_neg hclose.comma, if_true]

/-- An entry before a comma is followed by the other entries. -/
theorem separated_next (hs : Space s) (ht : Begins close t) (he : Space e)
    (hp : ∀ rest, Delimited rest → p (t ++ rest) = some (v, rest))
    (hu : separated p close k (u ++ close :: rest) = some (vs, rest)) :
    separated p close (k + 1) ((s ++ (t ++ (e ++ ',' :: u))) ++ close :: rest) =
      some (v :: vs, rest) := by
  have hentry := hp (e ++ ',' :: (u ++ close :: rest))
    (space_delimited he (stops_cons.mpr (by decide)))
  rw [List.append_assoc, List.append_assoc, List.append_assoc, List.cons_append, separated,
    skip_append hs ht.stops, hentry]
  simp only [Option.bind_some]
  rw [skip_append he (stops_cons.mpr (by decide))]
  simp only [if_true, hu, Option.map_some]

/-- No entry stands between the brackets of an empty list. -/
theorem bracketed_empty (hclose : Closing close) (hs : Space s) :
    bracketed p close k (s ++ close :: rest) = some ([], rest) := by
  rw [bracketed, skip_append hs (stops_cons.mpr hclose.space), List.head?_cons, if_pos rfl,
    List.tail_cons]

/-- The entries stand between the brackets of any other list. -/
theorem bracketed_entries (hs : Space s) (ht : Begins close t) :
    bracketed p close k ((s ++ t) ++ rest) = separated p close k ((s ++ t) ++ rest) := by
  have hopen : ¬ (skip ((s ++ t) ++ rest)).head? = some close := by
    rw [List.append_assoc, skip_append hs ht.stops]
    obtain ⟨c, u, rfl, -, hc⟩ := ht
    rw [List.cons_append, List.head?_cons, Option.some_inj]
    exact hc
  rw [bracketed, if_neg hopen]

theorem quoted_begins {name : List ℕ} (ht : Quoted t name) (hclose : close ≠ '"') :
    Begins close (t ++ rest) := by
  obtain ⟨body⟩ := ht
  exact ⟨'"', _, rfl, by decide, hclose.symm⟩

theorem named_read {name : List ℕ} (ht : Named t name) (hr : Stops isSpace rest) :
    readNamed (t ++ rest) = some (name, rest) := by
  obtain ⟨text, before, after⟩ := ht
  rename_i q e s
  rw [List.append_assoc, List.append_assoc, List.cons_append, readNamed, quoted_read text]
  simp only [Option.bind_some]
  rw [skip_append before (stops_cons.mpr (by decide))]
  simp only [skip_append after hr]

theorem named_begins {name : List ℕ} (ht : Named t name) (hclose : close ≠ '"') :
    Begins close (t ++ rest) := by
  obtain ⟨text, before, after⟩ := ht
  rw [List.append_assoc]
  exact quoted_begins text hclose

theorem member_read {name : List ℕ} (hs : Named s name) (ht : Begins close t)
    (hp : ∀ rest, Delimited rest → p (t ++ rest) = some (v, rest)) (hr : Delimited rest) :
    readMember p ((s ++ t) ++ rest) = some ((name, v), rest) := by
  rw [List.append_assoc, readMember, named_read hs ht.stops]
  simp only [Option.bind_some, hp rest hr, Option.map_some]

end Entries

section Values

/-- A fixed word with the value it stands for. -/
def readWord (word : List Char) (value : Json) : Reader Json := fun t =>
  if word.isPrefixOf t then some (value, t.drop word.length) else none

/-- A value, told by its first character. -/
def readValue : ℕ → Reader Json
  | 0, _ => none
  | _ + 1, [] => none
  | fuel + 1, c :: t =>
    if c = 'n' then readWord ['n', 'u', 'l', 'l'] .null (c :: t)
    else if c = 't' then readWord ['t', 'r', 'u', 'e'] (.boolean true) (c :: t)
    else if c = 'f' then readWord ['f', 'a', 'l', 's', 'e'] (.boolean false) (c :: t)
    else if c = '"' then (readQuoted (c :: t)).map fun (points, t) => (.string points, t)
    else if c = '[' then
      (bracketed (readValue fuel) ']' fuel t).map fun (items, t) => (.array items, t)
    else if c = '{' then
      (bracketed (readMember (readValue fuel)) '}' fuel t).map fun (members, t) =>
        (.object members, t)
    else (readNumber (c :: t)).map fun (lexeme, t) => (.number lexeme, t)

/-- The value a whole text stands for, if it is a text of the grammar. -/
def parse (t : List Char) : Option Json :=
  (readValue t.length (skip t)).bind fun (v, rest) => if skip rest = [] then some v else none

variable {t rest : List Char} {v w : Json}

/-- A number begins with a minus sign or a digit. -/
theorem number_begins (ht : NumberText t) :
    ∃ c u, t = c :: u ∧ (c = '-' ∨ c.isDigit = true) := by
  obtain ⟨minus, whole, fraction, exponent⟩ := ht
  cases minus with
  | present => exact ⟨_, _, rfl, .inl rfl⟩
  | absent =>
    cases whole with
    | zero => exact ⟨_, _, rfl, .inr (by decide)⟩
    | leading first digits => exact ⟨_, _, rfl, .inr (digits.2 _ List.mem_cons_self)⟩

/-- Characters that begin a number begin nothing else. -/
theorem numeric_ne {c d : Char} (hc : c = '-' ∨ c.isDigit = true) (hminus : d ≠ '-')
    (hdigit : d.isDigit = false) : c ≠ d := by
  rintro rfl
  obtain rfl | hc := hc
  · exact hminus rfl
  · rw [hdigit] at hc
    cases hc

/-- Every value begins with a character of its own. -/
theorem value_begins {node : Node} (ht : Derives t node) (hv : node = .value v) :
    Begins ']' t := by
  cases ht with
  | null => exact ⟨_, _, rfl, by decide, by decide⟩
  | yes => exact ⟨_, _, rfl, by decide, by decide⟩
  | no => exact ⟨_, _, rfl, by decide, by decide⟩
  | number text =>
    obtain ⟨c, u, rfl, hc⟩ := number_begins text
    have hblank : c ≠ ' ' := numeric_ne hc (by decide) (by decide)
    have htab : c ≠ '\t' := numeric_ne hc (by decide) (by decide)
    have hline : c ≠ '\n' := numeric_ne hc (by decide) (by decide)
    have hreturn : c ≠ '\r' := numeric_ne hc (by decide) (by decide)
    refine ⟨c, u, rfl, ?_, numeric_ne hc (by decide) (by decide)⟩
    simp [isSpace, hblank, htab, hline, hreturn]
  | string text =>
    obtain ⟨body⟩ := text
    exact ⟨_, _, rfl, by decide, by decide⟩
  | emptyArray space => exact ⟨_, _, rfl, by decide, by decide⟩
  | array entries => exact ⟨_, _, rfl, by decide, by decide⟩
  | emptyObject space => exact ⟨_, _, rfl, by decide, by decide⟩
  | object entries => exact ⟨_, _, rfl, by decide, by decide⟩
  | lastItem => cases hv
  | nextItem => cases hv
  | lastMember => cases hv
  | nextMember => cases hv

/-- Entries of an array open with an entry. -/
theorem items_open {node : Node} {items : List Json} (ht : Derives t node)
    (hnode : node = .items items) : ∃ s u, t = s ++ u ∧ Space s ∧ Begins ']' u := by
  cases ht with
  | lastItem before item after =>
    obtain ⟨c, u, rfl, hc⟩ := value_begins item rfl
    exact ⟨_, _, rfl, before, c, _, rfl, hc⟩
  | nextItem before item after rest =>
    obtain ⟨c, u, rfl, hc⟩ := value_begins item rfl
    exact ⟨_, _, rfl, before, c, _, rfl, hc⟩
  | _ => cases hnode

/-- Entries of an object open with a member. -/
theorem members_open {node : Node} {members : List (List ℕ × Json)} (ht : Derives t node)
    (hnode : node = .members members) : ∃ s u, t = s ++ u ∧ Space s ∧ Begins '}' u := by
  cases ht with
  | lastMember before key item after =>
    refine ⟨_, _, rfl, before, ?_⟩
    rw [List.append_assoc]
    exact named_begins key (by decide)
  | nextMember before key item after rest =>
    refine ⟨_, _, rfl, before, ?_⟩
    rw [List.append_assoc]
    exact named_begins key (by decide)
  | _ => cases hnode

/-- What reading a derived text gives, whatever may follow it. -/
def ReadBack (t : List Char) : Node → Prop
  | .value v => ∀ fuel, t.length ≤ fuel → ∀ rest, Delimited rest →
      readValue fuel (t ++ rest) = some (v, rest)
  | .items items => ∀ fuel k, t.length ≤ fuel → t.length ≤ k → ∀ rest,
      separated (readValue fuel) ']' k (t ++ ']' :: rest) = some (items, rest)
  | .members members => ∀ fuel k, t.length ≤ fuel → t.length ≤ k → ∀ rest,
      separated (readMember (readValue fuel)) '}' k (t ++ '}' :: rest) = some (members, rest)

theorem array_read {fuel : ℕ} {items : List Json}
    (h : bracketed (readValue fuel) ']' fuel t = some (items, rest)) :
    readValue (fuel + 1) ('[' :: t) = some (.array items, rest) := by
  change (bracketed (readValue fuel) ']' fuel t).map _ = _
  rw [h, Option.map_some]

theorem object_read {fuel : ℕ} {members : List (List ℕ × Json)}
    (h : bracketed (readMember (readValue fuel)) '}' fuel t = some (members, rest)) :
    readValue (fuel + 1) ('{' :: t) = some (.object members, rest) := by
  change (bracketed (readMember (readValue fuel)) '}' fuel t).map _ = _
  rw [h, Option.map_some]

theorem string_read {fuel : ℕ} {points : List ℕ} (ht : Quoted t points) :
    readValue (fuel + 1) (t ++ rest) = some (.string points, rest) := by
  have hquoted : readQuoted (t ++ rest) = some (points, rest) := quoted_read ht
  obtain ⟨body⟩ := ht
  exact congrArg (Option.map fun (points, t) => (Json.string points, t)) hquoted

theorem numeral_read {fuel : ℕ} (ht : NumberText t) (hr : Delimited rest) :
    readValue (fuel + 1) (t ++ rest) = some (.number t, rest) := by
  have hnumber := number_read ht hr
  obtain ⟨c, u, rfl, hc⟩ := number_begins ht
  have hnull : ¬ c = 'n' := numeric_ne hc (by decide) (by decide)
  have htrue : ¬ c = 't' := numeric_ne hc (by decide) (by decide)
  have hfalse : ¬ c = 'f' := numeric_ne hc (by decide) (by decide)
  have hquote : ¬ c = '"' := numeric_ne hc (by decide) (by decide)
  have harray : ¬ c = '[' := numeric_ne hc (by decide) (by decide)
  have hobject : ¬ c = '{' := numeric_ne hc (by decide) (by decide)
  rw [List.cons_append] at hnumber ⊢
  rw [readValue, if_neg hnull, if_neg htrue, if_neg hfalse, if_neg hquote, if_neg harray,
    if_neg hobject, hnumber, Option.map_some]

/-- A closing bracket is no part of the text around it. -/
theorem closing_square : Closing ']' := ⟨by decide, by decide, by decide⟩

theorem closing_brace : Closing '}' := ⟨by decide, by decide, by decide⟩

/-- Fuel for a text with a first character is fuel for the rest. -/
theorem fuel_succ {c : Char} {u : List Char} {fuel : ℕ} (h : (c :: u).length ≤ fuel) :
    ∃ k, fuel = k + 1 ∧ u.length ≤ k := by
  rw [List.length_cons] at h
  exact ⟨fuel - 1, by omega, by omega⟩

/-- The reader takes back exactly what the grammar derives. -/
theorem derives_read {node : Node} (ht : Derives t node) : ReadBack t node := by
  induction ht with
  | null | yes | no =>
    intro fuel hfuel rest hr
    obtain ⟨fuel, rfl, -⟩ := fuel_succ hfuel
    rfl
  | number text =>
    intro fuel hfuel rest hr
    obtain ⟨c, u, rfl, -⟩ := number_begins text
    obtain ⟨fuel, rfl, -⟩ := fuel_succ hfuel
    exact numeral_read text hr
  | string text =>
    intro fuel hfuel rest hr
    obtain ⟨body⟩ := text
    obtain ⟨fuel, rfl, -⟩ := fuel_succ hfuel
    exact string_read (.mk body)
  | emptyArray space =>
    intro fuel hfuel rest hr
    obtain ⟨fuel, rfl, -⟩ := fuel_succ hfuel
    rw [List.cons_append, List.append_assoc]
    exact array_read (bracketed_empty closing_square space)
  | emptyObject space =>
    intro fuel hfuel rest hr
    obtain ⟨fuel, rfl, -⟩ := fuel_succ hfuel
    rw [List.cons_append, List.append_assoc]
    exact object_read (bracketed_empty closing_brace space)
  | array entries ih =>
    intro fuel hfuel rest hr
    obtain ⟨fuel, rfl, hle⟩ := fuel_succ hfuel
    rw [List.length_append] at hle
    have hentries := ih fuel fuel (by omega) (by omega) rest
    obtain ⟨s, u, rfl, hs, hu⟩ := items_open entries rfl
    rw [List.cons_append, List.append_assoc]
    refine array_read ?_
    rw [bracketed_entries hs hu]
    exact hentries
  | object entries ih =>
    intro fuel hfuel rest hr
    obtain ⟨fuel, rfl, hle⟩ := fuel_succ hfuel
    rw [List.length_append] at hle
    have hentries := ih fuel fuel (by omega) (by omega) rest
    obtain ⟨s, u, rfl, hs, hu⟩ := members_open entries rfl
    rw [List.cons_append, List.append_assoc]
    refine object_read ?_
    rw [bracketed_entries hs hu]
    exact hentries
  | lastItem before item after ih =>
    intro fuel k hfuel hk rest
    obtain ⟨c, u, rfl, hc⟩ := value_begins item rfl
    simp only [List.length_append, List.length_cons] at hfuel hk
    cases k with
    | zero => omega
    | succ k =>
      exact separated_last closing_square before ⟨c, u, rfl, hc⟩ after
        (ih fuel (by rw [List.length_cons]; omega))
  | nextItem before item after tail ihItem ihTail =>
    intro fuel k hfuel hk rest
    simp only [List.length_append, List.length_cons] at hfuel hk
    cases k with
    | zero => omega
    | succ k =>
      exact separated_next before (value_begins item rfl) after (ihItem fuel (by omega))
        (ihTail fuel k (by omega) (by omega) rest)
  | lastMember before key item after ih =>
    intro fuel k hfuel hk rest
    obtain ⟨c, u, rfl, hc⟩ := value_begins item rfl
    simp only [List.length_append, List.length_cons] at hfuel hk
    cases k with
    | zero => omega
    | succ k =>
      exact separated_last closing_brace before (named_begins key (by decide)) after
        (fun rest hr => member_read key ⟨c, u, rfl, hc⟩
          (ih fuel (by rw [List.length_cons]; omega)) hr)
  | nextMember before key item after tail ihItem ihTail =>
    intro fuel k hfuel hk rest
    simp only [List.length_append, List.length_cons] at hfuel hk
    cases k with
    | zero => omega
    | succ k =>
      exact separated_next before (named_begins key (by decide)) after
        (fun rest hr => member_read key (value_begins item rfl) (ihItem fuel (by omega)) hr)
        (ihTail fuel k (by omega) (by omega) rest)

/-- Every text of the grammar is parsed to the value it stands for. -/
theorem parse_text (ht : JsonText t v) : parse t = some v := by
  obtain ⟨before, value, after⟩ := ht
  rename_i s t e
  have hlength : t.length ≤ (s ++ (t ++ e)).length := by
    simp only [List.length_append]
    omega
  have hvalue := derives_read value _ hlength e (delimited_space after)
  rw [parse, skip_append before (value_begins value rfl).stops, hvalue]
  simp only [Option.bind_some, if_pos (skip_space after)]

/-- A text stands for one value only. -/
theorem text_unique (hv : JsonText t v) (hw : JsonText t w) : v = w := by
  have hparse := parse_text hw
  rw [parse_text hv] at hparse
  exact Option.some.inj hparse

end Values

end HisiRfCore.JsonReader
