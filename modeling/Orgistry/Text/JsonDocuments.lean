import Orgistry.Text.JsonNumbers

/-!
# JSON documents

Parsing undoes printing, for every value whose numbers are number literals.  A value stands
in front of more text, so each step is stated with what follows it.
-/

namespace Orgistry.Text.Json

/-- What has been read stays the same in front of a text that cannot continue it. -/
def Settled (read : List Char → Option (List Char × List Char)) : Prop :=
  ∀ {text front rest more : List Char}, (rest = [] → EndsNumber more) →
    read text = some (front, rest) → read (text ++ more) = some (front, rest ++ more)

theorem EndsNumber.parseFraction {rest : List Char} (h : EndsNumber rest) :
    parseFraction rest = some ([], rest) := by
  unfold Json.parseFraction
  split
  · exact absurd rfl (h '.' rfl).2.1
  · rfl

theorem EndsNumber.parseExponent {rest : List Char} (h : EndsNumber rest) :
    parseExponent rest = some ([], rest) := by
  cases rest with
  | nil => rfl
  | cons e rest => rw [Json.parseExponent, if_neg (not_or.mpr (h e rfl).2.2)]

/-- All digits are read, and there is one. -/
theorem parseDigits_eq_some_iff {text digits rest : List Char} :
    parseDigits text = some (digits, rest) ↔
      text = digits ++ rest ∧ digits ≠ [] ∧ (∀ c ∈ digits, c.isDigit = true) ∧
        ∀ c ∈ rest.head?, c.isDigit = false := by
  constructor
  · intro h
    rw [parseDigits] at h
    split at h
    · cases h
    · next hne =>
        obtain ⟨rfl, rfl⟩ := Prod.mk.inj (Option.some.inj h)
        refine ⟨List.takeWhile_append_dropWhile.symm, hne, fun c => List.mem_takeWhile_imp,
          fun c hc => ?_⟩
        have hstop := List.head?_dropWhile_not Char.isDigit text
        rw [hc] at hstop
        simpa using hstop
  · rintro ⟨rfl, hne, hdigits, hstop⟩
    have hrest : rest.takeWhile Char.isDigit = [] ∧ rest.dropWhile Char.isDigit = rest := by
      cases rest with
      | nil => exact ⟨rfl, rfl⟩
      | cons c rest =>
          have hc : ¬c.isDigit = true := by simp [hstop c rfl]
          exact ⟨List.takeWhile_cons_of_neg hc, List.dropWhile_cons_of_neg hc⟩
    rw [parseDigits, List.takeWhile_append_of_pos hdigits, List.dropWhile_append_of_pos hdigits,
      hrest.1, hrest.2, List.append_nil, if_neg hne]

theorem settled_parseDigits : Settled parseDigits := by
  intro text front rest more hmore hread
  obtain ⟨rfl, hne, hdigits, hstop⟩ := parseDigits_eq_some_iff.mp hread
  refine parseDigits_eq_some_iff.mpr ⟨List.append_assoc _ _ _, hne, hdigits, fun c hc => ?_⟩
  cases rest with
  | nil => exact (hmore rfl c hc).1
  | cons d rest => exact hstop c hc

theorem Settled.map {read : List Char → Option (List Char × List Char)} (h : Settled read)
    {text front rest more : List Char} (f : List Char → List Char)
    (hmore : rest = [] → EndsNumber more)
    (hread : (read text).map (fun (digits, rest) => (f digits, rest)) = some (front, rest)) :
    (read (text ++ more)).map (fun (digits, rest) => (f digits, rest)) =
      some (front, rest ++ more) := by
  obtain ⟨⟨digits, rest'⟩, hdigits, heq⟩ := Option.map_eq_some_iff.mp hread
  obtain ⟨rfl, rfl⟩ := Prod.mk.inj heq
  rw [h hmore hdigits]
  rfl

theorem settled_parseInteger : Settled parseInteger := by
  intro text front rest more hmore hread
  cases text with
  | nil => cases hread
  | cons c text =>
      rw [List.cons_append]
      unfold parseInteger at hread ⊢
      split at hread
      · next heq =>
          obtain ⟨rfl, rfl⟩ := List.cons.inj heq
          cases hread
          rfl
      · next hne =>
          split
          · next heq => exact (hne _ (by rw [(List.cons.inj heq).1])).elim
          · exact settled_parseDigits hmore hread

theorem settled_parseFraction : Settled parseFraction := by
  intro text front rest more hmore hread
  cases text with
  | nil =>
      obtain ⟨rfl, rfl⟩ := Prod.mk.inj (Option.some.inj hread)
      exact (hmore rfl).parseFraction
  | cons c text =>
      rw [List.cons_append]
      unfold parseFraction at hread ⊢
      split at hread
      · next heq =>
          obtain ⟨rfl, rfl⟩ := List.cons.inj heq
          exact settled_parseDigits.map _ hmore hread
      · next hne =>
          obtain ⟨rfl, rfl⟩ := Prod.mk.inj (Option.some.inj hread)
          split
          · next heq => exact (hne _ (by rw [(List.cons.inj heq).1])).elim
          · rfl

theorem settled_parseSignedDigits : Settled parseSignedDigits := by
  intro text front rest more hmore hread
  cases text with
  | nil => cases hread
  | cons c text =>
      rw [List.cons_append]
      unfold parseSignedDigits at hread ⊢
      split at hread
      · next heq =>
          obtain ⟨rfl, rfl⟩ := List.cons.inj heq
          exact settled_parseDigits.map _ hmore hread
      · next heq =>
          obtain ⟨rfl, rfl⟩ := List.cons.inj heq
          exact settled_parseDigits.map _ hmore hread
      · next hplus hminus =>
          split
          · next heq => exact (hplus _ (by rw [(List.cons.inj heq).1])).elim
          · next heq => exact (hminus _ (by rw [(List.cons.inj heq).1])).elim
          · exact settled_parseDigits hmore hread

theorem settled_parseExponent : Settled parseExponent := by
  intro text front rest more hmore hread
  cases text with
  | nil =>
      obtain ⟨rfl, rfl⟩ := Prod.mk.inj (Option.some.inj hread)
      exact (hmore rfl).parseExponent
  | cons e text =>
      rw [List.cons_append, parseExponent]
      rw [parseExponent] at hread
      split at hread
      · next he =>
          rw [if_pos he]
          exact settled_parseSignedDigits.map _ hmore hread
      · next he =>
          obtain ⟨rfl, rfl⟩ := Prod.mk.inj (Option.some.inj hread)
          rw [if_neg he]
          rfl

theorem parseUnsigned_eq_some_iff {text front rest : List Char} :
    parseUnsigned text = some (front, rest) ↔
      ∃ integer afterInteger fraction afterFraction exponent,
        parseInteger text = some (integer, afterInteger) ∧
        parseFraction afterInteger = some (fraction, afterFraction) ∧
        parseExponent afterFraction = some (exponent, rest) ∧
        integer ++ fraction ++ exponent = front := by
  simp only [parseUnsigned, Option.bind_eq_bind, Option.bind_eq_some_iff, Option.pure_def,
    Option.some.injEq, Prod.mk.injEq, Prod.exists]
  constructor
  · rintro ⟨integer, afterInteger, h₁, fraction, afterFraction, h₂, exponent, _, h₃, hfront, rfl⟩
    exact ⟨integer, afterInteger, fraction, afterFraction, exponent, h₁, h₂, h₃, hfront⟩
  · rintro ⟨integer, afterInteger, fraction, afterFraction, exponent, h₁, h₂, h₃, hfront⟩
    exact ⟨integer, afterInteger, h₁, fraction, afterFraction, h₂, exponent, rest, h₃, hfront, rfl⟩

theorem settled_parseUnsigned : Settled parseUnsigned := by
  intro text front rest more hmore hread
  obtain ⟨integer, afterInteger, fraction, afterFraction, exponent, h₁, h₂, h₃, hfront⟩ :=
    parseUnsigned_eq_some_iff.mp hread
  have hfraction : afterFraction = [] → rest = [] := by
    rintro rfl
    exact (Prod.mk.inj (Option.some.inj h₃)).2.symm
  have hinteger : afterInteger = [] → afterFraction = [] := by
    rintro rfl
    exact (Prod.mk.inj (Option.some.inj h₂)).2.symm
  exact parseUnsigned_eq_some_iff.mpr ⟨integer, afterInteger ++ more, fraction,
    afterFraction ++ more, exponent,
    settled_parseInteger (fun h => hmore (hfraction (hinteger h))) h₁,
    settled_parseFraction (fun h => hmore (hfraction h)) h₂, settled_parseExponent hmore h₃,
    hfront⟩

/-- Reading a number does not depend on what follows its end. -/
theorem settled_parseNumber : Settled parseNumber := by
  intro text front rest more hmore hread
  cases text with
  | nil => cases hread
  | cons c text =>
      rw [List.cons_append]
      unfold parseNumber at hread ⊢
      split at hread
      · next heq =>
          obtain ⟨rfl, rfl⟩ := List.cons.inj heq
          exact settled_parseUnsigned.map _ hmore hread
      · next hne =>
          split
          · next heq => exact (hne _ (by rw [(List.cons.inj heq).1])).elim
          · exact settled_parseUnsigned hmore hread

/-- A number as it is written. -/
structure IsLiteral (literal : List Char) : Prop where
  reads : parseNumber literal = some (literal, [])
  digit : literal.any Char.isDigit

instance (literal : List Char) : Decidable (IsLiteral literal) :=
  decidable_of_iff (parseNumber literal = some (literal, []) ∧ literal.any Char.isDigit)
    ⟨fun h => ⟨h.1, h.2⟩, fun h => ⟨h.reads, h.digit⟩⟩

theorem IsLiteral.parseNumber {literal rest : List Char} (h : IsLiteral literal)
    (hrest : EndsNumber rest) : parseNumber (literal ++ rest) = some (literal, rest) :=
  settled_parseNumber (fun _ => hrest) h.reads

/-- A number begins with its sign or with a digit. -/
theorem IsLiteral.head {literal : List Char} (h : IsLiteral literal) :
    ∃ c text, literal = c :: text ∧ (c = '-' ∨ c.isDigit) := by
  have hreads := h.reads
  cases literal with
  | nil => cases hreads
  | cons c text =>
      refine ⟨c, text, rfl, ?_⟩
      unfold Json.parseNumber at hreads
      split at hreads
      · next heq => exact .inl (List.cons.inj heq).1
      · right
        obtain ⟨integer, afterInteger, _, _, _, hinteger, -⟩ := parseUnsigned_eq_some_iff.mp hreads
        unfold parseInteger at hinteger
        split at hinteger
        · next heq =>
            rw [(List.cons.inj heq).1]
            rfl
        · obtain ⟨htext, hne, hdigits, -⟩ := parseDigits_eq_some_iff.mp hinteger
          cases integer with
          | nil => exact absurd rfl hne
          | cons d integer =>
              rw [(List.cons.inj htext).1]
              exact hdigits d List.mem_cons_self

/-! ## Documents -/

mutual

/-- Every number is a literal. -/
def WellWritten : Json → Prop
  | .number literal => IsLiteral literal
  | .array items => ItemsWellWritten items
  | .object members => MembersWellWritten members
  | _ => True

def ItemsWellWritten : List Json → Prop
  | [] => True
  | item :: items => WellWritten item ∧ ItemsWellWritten items

def MembersWellWritten : List (List Char × Json) → Prop
  | [] => True
  | (_, value) :: members => WellWritten value ∧ MembersWellWritten members

end

theorem membersWellWritten_iff {members : List (List Char × Json)} :
    MembersWellWritten members ↔ ∀ member ∈ members, WellWritten member.2 := by
  induction members with
  | nil => simp [MembersWellWritten]
  | cons member members ih => rw [MembersWellWritten, ih, List.forall_mem_cons]

theorem isSpace_of_head {c : Char} (h : c = '-' ∨ c.isDigit) : isSpace c = false := by
  rcases h with rfl | h
  · rfl
  · exact isSpace_of_isDigit h

theorem ne_of_head {c d : Char} (h : c = '-' ∨ c.isDigit) (hd : d ≠ '-')
    (hdigit : d.isDigit = false) : c ≠ d := by
  rintro rfl
  rcases h with h | h
  · exact hd h
  · rw [hdigit] at h
    cases h

/-- What a printed value begins with. -/
theorem render_head {value : Json} (h : WellWritten value) :
    ∃ c text, render value = c :: text ∧ isSpace c = false ∧ c ≠ ']' := by
  cases value with
  | null => exact ⟨_, _, rfl, rfl, by decide⟩
  | bool value => cases value <;> exact ⟨_, _, rfl, rfl, by decide⟩
  | number literal =>
      rw [WellWritten] at h
      obtain ⟨c, text, htext, hc⟩ := h.head
      rw [render, if_pos h.digit]
      exact ⟨c, text, htext, isSpace_of_head hc, ne_of_head hc (by decide) rfl⟩
  | string text => exact ⟨_, _, rfl, rfl, by decide⟩
  | array items => exact ⟨_, _, rfl, rfl, by decide⟩
  | object members => exact ⟨_, _, rfl, rfl, by decide⟩

/-- Literals are read back up to their end. -/
theorem parseValue_number {literal rest : List Char} (h : IsLiteral literal)
    (hrest : EndsNumber rest) (fuel : ℕ) :
    parseValue (fuel + 1) (literal ++ rest) = some (.number literal, rest) := by
  obtain ⟨c, text, htext, hc⟩ := h.head
  have hnumber := h.parseNumber hrest
  rw [htext, List.cons_append] at hnumber ⊢
  rw [parseValue, skipSpace_cons (isSpace_of_head hc)]
  split
  · next heq => exact absurd (List.cons.inj heq).1 (ne_of_head hc (by decide) rfl)
  · next heq => exact absurd (List.cons.inj heq).1 (ne_of_head hc (by decide) rfl)
  · next heq => exact absurd (List.cons.inj heq).1 (ne_of_head hc (by decide) rfl)
  · next heq => exact absurd (List.cons.inj heq).1 (ne_of_head hc (by decide) rfl)
  · next heq => exact absurd (List.cons.inj heq).1 (ne_of_head hc (by decide) rfl)
  · next heq => exact absurd (List.cons.inj heq).1 (ne_of_head hc (by decide) rfl)
  · rw [hnumber]
    rfl

theorem parseValue_string (text rest : List Char) (fuel : ℕ) :
    parseValue (fuel + 1) (quote text ++ rest) = some (.string text, rest) := by
  rw [quote, List.cons_append, List.append_assoc, parseValue, skipSpace_cons rfl]
  simp only [List.singleton_append, parseString_quote]
  rfl

theorem endsNumber_close {c : Char} (h : c = ',' ∨ c = ']' ∨ c = '}') (rest : List Char) :
    EndsNumber (c :: rest) := by
  rintro _ ⟨⟩
  rcases h with rfl | rfl | rfl <;> decide

theorem parseValue_array {text : List Char} {c : Char} (hspace : isSpace c = false) (hc : c ≠ ']')
    (fuel : ℕ) : parseValue (fuel + 1) ('[' :: c :: text) =
      (parseItems fuel (c :: text)).map fun (items, rest) => (.array items, rest) := by
  rw [parseValue, skipSpace_cons rfl]
  simp only [skipSpace_cons hspace]
  split
  · next heq => exact absurd (List.cons.inj heq).1 hc
  · rfl

theorem parseValue_object (text : List Char) (fuel : ℕ) :
    parseValue (fuel + 1) ('{' :: '"' :: text) =
      (parseMembers fuel ('"' :: text)).map fun (members, rest) => (.object members, rest) := by
  rw [parseValue, skipSpace_cons rfl]
  simp only [skipSpace_cons (show isSpace '"' = false from rfl)]
  rfl

theorem parseItems_last {item : Json} {text rest : List Char} {fuel : ℕ}
    (hitem : parseValue fuel text = some (item, ']' :: rest)) :
    parseItems (fuel + 1) text = some ([item], rest) := by
  simp only [parseItems, hitem, Option.bind_eq_bind, Option.bind_some,
    skipSpace_cons (show isSpace ']' = false from rfl), Option.pure_def]

theorem parseItems_next {item : Json} {items : List Json} {text after rest : List Char} {fuel : ℕ}
    (hitem : parseValue fuel text = some (item, ',' :: after))
    (hitems : parseItems fuel after = some (items, rest)) :
    parseItems (fuel + 1) text = some (item :: items, rest) := by
  simp only [parseItems, hitem, hitems, Option.bind_eq_bind, Option.bind_some,
    skipSpace_cons (show isSpace ',' = false from rfl), Option.pure_def]

theorem parseMembers_end {name text rest : List Char} {value : Json} {fuel : ℕ}
    (hvalue : parseValue fuel text = some (value, '}' :: rest)) :
    parseMembers (fuel + 1) (quote name ++ ':' :: text) = some ([(name, value)], rest) := by
  rw [quote, List.cons_append, List.append_assoc, parseMembers, skipSpace_cons rfl]
  simp only [List.singleton_append, parseString_quote, Option.bind_eq_bind, Option.bind_some,
    skipSpace_cons (show isSpace ':' = false from rfl), hvalue,
    skipSpace_cons (show isSpace '}' = false from rfl), Option.pure_def]

theorem parseMembers_next {name text after rest : List Char} {value : Json}
    {members : List (List Char × Json)} {fuel : ℕ}
    (hvalue : parseValue fuel text = some (value, ',' :: after))
    (hmembers : parseMembers fuel after = some (members, rest)) :
    parseMembers (fuel + 1) (quote name ++ ':' :: text) =
      some ((name, value) :: members, rest) := by
  rw [quote, List.cons_append, List.append_assoc, parseMembers, skipSpace_cons rfl]
  simp only [List.singleton_append, parseString_quote, Option.bind_eq_bind, Option.bind_some,
    skipSpace_cons (show isSpace ':' = false from rfl), hvalue, hmembers,
    skipSpace_cons (show isSpace ',' = false from rfl), Option.pure_def]

mutual

/-- A printed value is read up to its end. -/
theorem parseValue_render : ∀ (value : Json), WellWritten value → ∀ {rest : List Char} {fuel : ℕ},
    EndsNumber rest → (render value).length < fuel →
      parseValue fuel (render value ++ rest) = some (value, rest)
  | value, h, rest, 0, _, hfuel => absurd hfuel (Nat.not_lt_zero _)
  | .null, _, rest, fuel + 1, _, _ => by
      rw [render, parseValue]
      rfl
  | .bool value, _, rest, fuel + 1, _, _ => by
      cases value <;>
        · rw [render, parseValue]
          rfl
  | .number literal, h, rest, fuel + 1, hrest, _ => by
      rw [WellWritten] at h
      rw [render, if_pos h.digit, parseValue_number h hrest]
  | .string text, _, rest, fuel + 1, _, _ => by
      rw [render, parseValue_string]
  | .array [], _, rest, fuel + 1, _, _ => by
      rw [render, parseValue]
      rfl
  | .array (item :: items), h, rest, fuel + 1, hrest, hfuel => by
      rw [WellWritten] at h
      obtain ⟨c, text, htext, hspace, hc⟩ := render_head h.1
      rw [render, List.length_cons, List.length_append, List.length_singleton] at hfuel
      have hhead : renderItems (item :: items) ++ [']'] ++ rest =
          c :: (text ++ (if items.isEmpty then [] else ',' :: renderItems items) ++
            ']' :: rest) := by
        rw [renderItems, htext]
        simp
      have hitems : parseItems fuel (renderItems (item :: items) ++ ']' :: rest) =
          some (item :: items, rest) := parseItems_render item items h (by omega)
      rw [render, List.cons_append, hhead, parseValue_array hspace hc, ← hhead, List.append_assoc,
        List.singleton_append, hitems]
      rfl
  | .object [], _, rest, fuel + 1, _, _ => by
      rw [render, parseValue]
      rfl
  | .object ((name, value) :: members), h, rest, fuel + 1, hrest, hfuel => by
      rw [WellWritten] at h
      rw [render, List.length_cons, List.length_append, List.length_singleton] at hfuel
      have hhead : renderMembers ((name, value) :: members) ++ ['}'] ++ rest =
          '"' :: (name.flatMap escapeChar ++ ['"'] ++ ':' :: render value ++
            (if members.isEmpty then [] else ',' :: renderMembers members) ++ '}' :: rest) := by
        rw [renderMembers, quote]
        simp
      have hmembers : parseMembers fuel (renderMembers ((name, value) :: members) ++ '}' :: rest) =
          some ((name, value) :: members, rest) :=
        parseMembers_render name value members h (by omega)
      rw [render, List.cons_append, hhead, parseValue_object, ← hhead, List.append_assoc,
        List.singleton_append, hmembers]
      rfl

theorem parseItems_render : ∀ (item : Json) (items : List Json), ItemsWellWritten (item :: items) →
    ∀ {rest : List Char} {fuel : ℕ}, (renderItems (item :: items)).length + 1 < fuel →
      parseItems fuel (renderItems (item :: items) ++ ']' :: rest) = some (item :: items, rest)
  | item, items, h, rest, 0, hfuel => absurd hfuel (Nat.not_lt_zero _)
  | item, [], h, rest, fuel + 1, hfuel => by
      rw [ItemsWellWritten] at h
      rw [renderItems, List.isEmpty_nil, if_pos rfl, List.append_nil] at hfuel ⊢
      exact parseItems_last
        (parseValue_render item h.1 (endsNumber_close (.inr (.inl rfl)) rest) (by omega))
  | item, next :: items, h, rest, fuel + 1, hfuel => by
      rw [ItemsWellWritten] at h
      rw [renderItems, List.isEmpty_cons, if_neg Bool.false_ne_true, List.length_append,
        List.length_cons] at hfuel
      rw [renderItems, List.isEmpty_cons, if_neg Bool.false_ne_true, List.append_assoc,
        List.cons_append]
      exact parseItems_next
        (parseValue_render item h.1 (endsNumber_close (.inl rfl) _) (by omega))
        (parseItems_render next items h.2 (by omega))

/-- Members are read back, by induction on the members and the fuel. -/
theorem parseMembers_render : ∀ (name : List Char) (value : Json)
    (members : List (List Char × Json)), MembersWellWritten ((name, value) :: members) →
    ∀ {rest : List Char} {fuel : ℕ}, (renderMembers ((name, value) :: members)).length + 1 < fuel →
      parseMembers fuel (renderMembers ((name, value) :: members) ++ '}' :: rest) =
        some ((name, value) :: members, rest)
  | _, _, _, h, rest, 0, hfuel => absurd hfuel (Nat.not_lt_zero _)
  | name, value, [], h, rest, fuel + 1, hfuel => by
      rw [MembersWellWritten] at h
      rw [renderMembers, List.isEmpty_nil, if_pos rfl, List.append_nil] at hfuel ⊢
      rw [List.length_append, List.length_cons] at hfuel
      rw [List.append_assoc, List.cons_append]
      exact parseMembers_end
        (parseValue_render value h.1 (endsNumber_close (.inr (.inr rfl)) rest) (by omega))
  | name, value, (name', value') :: members, h, rest, fuel + 1, hfuel => by
      rw [MembersWellWritten] at h
      rw [renderMembers, List.isEmpty_cons, if_neg Bool.false_ne_true, List.length_append,
        List.length_cons, List.length_append, List.length_cons] at hfuel
      rw [renderMembers, List.isEmpty_cons, if_neg Bool.false_ne_true, List.append_assoc,
        List.cons_append, List.append_assoc, List.cons_append]
      exact parseMembers_next
        (parseValue_render value h.1 (endsNumber_close (.inl rfl) _) (by omega))
        (parseMembers_render name' value' members h.2 (by omega))

end

/-- Parsing undoes printing. -/
theorem parse_render {value : Json} (h : WellWritten value) :
    parse (render value) = some value := by
  have hends : EndsNumber [] := fun c hc => absurd hc (by simp)
  have hvalue := parseValue_render value h hends (Nat.lt_succ_self _)
  rw [List.append_nil] at hvalue
  rw [parse, hvalue]
  rfl

end Orgistry.Text.Json
