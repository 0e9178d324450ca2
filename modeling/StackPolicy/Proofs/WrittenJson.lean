import Mathlib.Data.Option.Basic
import Mathlib.Tactic.SplitIfs
import StackPolicy.Table.Lemmas
import StackPolicy.Value.JsonReader
import StackPolicy.Value.JsonWriter

/-!
# Reading what has been written as JSON

The reader takes back every value that the writer has written, as long as it
holds no numbers with a fraction and no name occurs twice in a record.  Every
reader is told what follows the part that it takes.
-/

namespace StackPolicy.Value

open StackPolicy.Text

/-! ## Integers -/

/-- Whether a number ends before some text, which does not go on with a digit, a fraction or an
exponent. -/
def EndsNumber (rest : List Char) : Prop :=
  ∀ next ∈ rest.head?, next.isDigit = false ∧ next ≠ '.' ∧ next ≠ 'e' ∧ next ≠ 'E'

theorem readFraction?_of_endsNumber {rest : List Char} (ends : EndsNumber rest) :
    readFraction? rest = some ([], rest) := by
  cases rest with
  | nil => rfl
  | cons next rest =>
      obtain ⟨-, hpoint, -, -⟩ := ends next rfl
      unfold readFraction?
      split
      · rename_i same
        cases same
        exact absurd rfl hpoint
      · rfl

theorem readExponent?_of_endsNumber {rest : List Char} (ends : EndsNumber rest) :
    readExponent? rest = some (none, rest) := by
  cases rest with
  | nil => rfl
  | cons next rest =>
      obtain ⟨-, -, hlower, hupper⟩ := ends next rfl
      simp [readExponent?, hlower, hupper]

section Digits

variable {number : Nat} {rest : List Char} (ends : EndsNumber rest)

theorem forall_isDigit_toDigits (number : Nat) :
    ∀ digit ∈ Nat.toDigits 10 number, digit.isDigit = true :=
  fun _ => Nat.isDigit_of_mem_toDigits (by decide) (by decide)

theorem head?_toDigits_ne_zero (positive : 0 < number) :
    (Nat.toDigits 10 number).head? ≠ some '0' := by
  induction number using Nat.strongRecOn with
  | ind number ih =>
      by_cases hsmall : number < 10
      · rw [Nat.toDigits_of_lt_base hsmall, List.head?_cons, ne_eq, Option.some.injEq,
          Nat.digitChar_eq_zero]
        omega
      · have hquotient := ih (number / 10) (by omega) (by omega)
        obtain ⟨first, digits, hdigits⟩ := List.exists_cons_of_ne_nil
          (Nat.toDigits_ne_nil (n := number / 10) (b := 10))
        rw [hdigits] at hquotient
        rw [Nat.toDigits_of_base_le (by decide) (by omega), hdigits]
        exact hquotient

include ends

theorem takeWhile_toDigits (number : Nat) :
    (Nat.toDigits 10 number ++ rest).takeWhile Char.isDigit = Nat.toDigits 10 number ∧
      (Nat.toDigits 10 number ++ rest).dropWhile Char.isDigit = rest := by
  have hall := forall_isDigit_toDigits number
  have hrest : rest.takeWhile Char.isDigit = [] ∧ rest.dropWhile Char.isDigit = rest := by
    cases rest with
    | nil => exact ⟨rfl, rfl⟩
    | cons next rest =>
        obtain ⟨hdigit, -⟩ := ends next rfl
        simp [hdigit]
  rw [List.takeWhile_append_of_pos hall, List.dropWhile_append_of_pos hall, hrest.1, hrest.2,
    List.append_nil]
  exact ⟨rfl, rfl⟩

/-- The digits of a number are read as that number, with the sign that stands before them. -/
theorem readNumber?_toDigits {source : List Char} {negative : Bool}
    (signed : readSign source = (negative, Nat.toDigits 10 number ++ rest)) :
    readNumber? source = some (int (if negative then -number else number), rest) := by
  obtain ⟨htake, hdrop⟩ := takeWhile_toDigits ends number
  have hleads : (!(Nat.toDigits 10 number).isEmpty && ((Nat.toDigits 10 number).length = 1 ||
      (Nat.toDigits 10 number).head? != some '0')) = true := by
    rcases Nat.eq_zero_or_pos number with rfl | hpositive
    · decide
    · simp [head?_toDigits_ne_zero hpositive, Nat.toDigits_ne_nil]
  unfold readNumber?
  rw [signed]
  dsimp only
  rw [htake, hdrop, (Option.guard_eq_some' ()).mpr hleads, readFraction?_of_endsNumber ends]
  simp [readExponent?_of_endsNumber ends]

omit ends in
theorem readSign_toDigits : readSign (Nat.toDigits 10 number ++ rest) =
    (false, Nat.toDigits 10 number ++ rest) := by
  obtain ⟨first, digits, hdigits⟩ := List.exists_cons_of_ne_nil
    (Nat.toDigits_ne_nil (n := number) (b := 10))
  have hfirst : first.isDigit = true := forall_isDigit_toDigits number _ (by simp [hdigits])
  rw [hdigits, List.cons_append]
  unfold readSign
  split
  · rename_i same
    cases same
    cases hfirst
  · rfl

theorem readNumber?_writeInt (number : Int) :
    readNumber? (writeInt number ++ rest) = some (int number, rest) := by
  unfold writeInt
  split
  · have hsigned : readSign ('-' :: (Nat.toDigits 10 number.natAbs ++ rest)) =
        (true, Nat.toDigits 10 number.natAbs ++ rest) := rfl
    rw [List.cons_append, readNumber?_toDigits ends hsigned, if_pos rfl]
    congr
    omega
  · rw [readNumber?_toDigits ends readSign_toDigits, if_neg (by decide)]
    congr
    omega

end Digits

/-! ## Texts -/

theorem hexValue?_digitChar :
    ∀ digit, digit < 16 → hexValue? (Nat.digitChar digit) = some digit := by
  decide

theorem readCodePoint?_of_lt {character : Char} (small : character.toNat < 0x20)
    (rest : List Char) :
    readCodePoint? ('0' :: '0' :: jsonHexDigit (character.toNat / 16) ::
      jsonHexDigit character.toNat :: rest) = some (character, rest) := by
  have hhex : readHex? 4 0 ('0' :: '0' :: jsonHexDigit (character.toNat / 16) ::
      jsonHexDigit character.toNat :: rest) = some (character.toNat, rest) := by
    have hzero : hexValue? '0' = some 0 := by decide
    have hhigh := hexValue?_digitChar (character.toNat / 16 % 16) (by omega)
    have hlow := hexValue?_digitChar (character.toNat % 16) (by omega)
    simp only [readHex?, hzero, jsonHexDigit, hhigh, hlow, Option.bind_some]
    congr
    omega
  have hsurrogate : ¬(0xd800 ≤ character.toNat ∧ character.toNat < 0xdc00) := by omega
  have hvalid : character.toNat.isValidChar := .inl (by omega)
  unfold readCodePoint?
  rw [hhex, Option.bind_eq_bind, Option.bind_some]
  refine (if_neg hsurrogate).trans ((if_pos hvalid).trans ?_)
  rw [Char.ofNat_toNat]
  rfl

/-- One more character in front of a text body that is read. -/
def prepend (character : Char) (read : List Char × List Char) : List Char × List Char :=
  (character :: read.1, read.2)

section Body

variable {character : Char} (fuel : Nat) (rest : List Char)

theorem readTextBody?_simpleEscape {mark : Char} (escapes : simpleEscape? mark = some character) :
    readTextBody? (fuel + 1) ('\\' :: mark :: rest) =
      (readTextBody? fuel rest).map (prepend character) := by
  have hmark : mark ≠ 'u' := by
    rintro rfl
    cases escapes
  rw [readTextBody?, escapes]
  · cases readTextBody? fuel rest <;> rfl
  · exact hmark

theorem readTextBody?_codePoint (small : character.toNat < 0x20) :
    readTextBody? (fuel + 1) ('\\' :: 'u' :: '0' :: '0' :: jsonHexDigit (character.toNat / 16) ::
      jsonHexDigit character.toNat :: rest) =
        (readTextBody? fuel rest).map (prepend character) := by
  simp only [readTextBody?, readCodePoint?_of_lt small, Option.bind_eq_bind, Option.bind_some]
  cases readTextBody? fuel rest <;> rfl

theorem readTextBody?_plain (quote : character ≠ '"') (backslash : character ≠ '\\')
    (large : 0x20 ≤ character.toNat) :
    readTextBody? (fuel + 1) (character :: rest) =
      (readTextBody? fuel rest).map (prepend character) := by
  rw [readTextBody?]
  · have hplain : (decide (0x20 ≤ character.toNat) && character != '\\') = true := by
      simp [large, backslash]
    rw [(Option.guard_eq_some' ()).mpr hplain]
    cases readTextBody? fuel rest <;> rfl
  · exact quote
  · exact fun _ same _ => backslash same
  · exact fun _ _ same _ => backslash same

/-- What stands for a character in a text is read as that character. -/
theorem readTextBody?_jsonEscape (character : Char) :
    readTextBody? (fuel + 1) (jsonEscape character ++ rest) =
      (readTextBody? fuel rest).map (prepend character) := by
  have hsimple (mark : Char) (escapes : simpleEscape? mark = some character) :
      readTextBody? (fuel + 1) (['\\', mark] ++ rest) =
        (readTextBody? fuel rest).map (prepend character) :=
    readTextBody?_simpleEscape fuel rest escapes
  unfold jsonEscape
  split_ifs with hquote hbackslash hbackspace htab hline hform hreturn hsmall
  · exact hsimple '"' (by rw [hquote]; rfl)
  · exact hsimple '\\' (by rw [hbackslash]; rfl)
  · exact hsimple 'b' (by rw [hbackspace]; rfl)
  · exact hsimple 't' (by rw [htab]; rfl)
  · exact hsimple 'n' (by rw [hline]; rfl)
  · exact hsimple 'f' (by rw [hform]; rfl)
  · exact hsimple 'r' (by rw [hreturn]; rfl)
  · exact readTextBody?_codePoint fuel rest hsmall
  · exact readTextBody?_plain fuel rest hquote hbackslash (by omega)

end Body

theorem readTextBody?_written {content : List Char} {fuel : Nat}
    (enough : content.length < fuel) (rest : List Char) :
    readTextBody? fuel (content.flatMap jsonEscape ++ '"' :: rest) = some (content, rest) := by
  induction content generalizing fuel with
  | nil =>
      cases fuel with
      | zero => cases enough
      | succ fuel => rfl
  | cons character content ih =>
      cases fuel with
      | zero => cases enough
      | succ fuel =>
          rw [List.length_cons, Nat.add_lt_add_iff_right] at enough
          rw [List.flatMap_cons, List.append_assoc, readTextBody?_jsonEscape, ih enough]
          rfl

theorem length_le_flatMap_jsonEscape (content : List Char) :
    content.length ≤ (content.flatMap jsonEscape).length := by
  have hone (character : Char) : 1 ≤ (jsonEscape character).length := by
    unfold jsonEscape
    split_ifs <;> simp
  induction content with
  | nil => exact Nat.le_refl 0
  | cons character content ih =>
      have hfirst := hone character
      rw [List.flatMap_cons, List.length_append, List.length_cons]
      omega

theorem readText?_writeText (content : String) (rest : List Char) :
    readText? (writeText content ++ rest) = some (content, rest) := by
  have henough : content.toList.length <
      ('"' :: (content.toList.flatMap jsonEscape ++ '"' :: rest)).length := by
    have hlength := length_le_flatMap_jsonEscape content.toList
    simp only [List.length_cons, List.length_append]
    omega
  have hread := readTextBody?_written henough rest
  simp only [writeText, List.cons_append, List.append_assoc, List.nil_append, readText?, hread]
  simp

/-! ## Values -/

/-- Values without fractions, in whose records no name occurs twice. -/
inductive Plain : Value → Prop where
  | null : Plain null
  | bool (truth : Bool) : Plain (bool truth)
  | int (number : Int) : Plain (int number)
  | text (content : String) : Plain (text content)
  | list {items : List Value} (plain : ∀ item ∈ items, Plain item) : Plain (list items)
  | record {members : List (String × Value)} (distinct : (members.map Prod.fst).Nodup)
      (plain : ∀ member ∈ members, Plain member.2) : Plain (record members)

/-- Whether a text begins with a character that is no blank and closes no list. -/
def Opens (source : List Char) : Prop :=
  ∃ first rest, source = first :: rest ∧ isBlank first = false ∧ first ≠ ']'

theorem Opens.append {source : List Char} (h : Opens source) (rest : List Char) :
    Opens (source ++ rest) := by
  obtain ⟨first, later, rfl, hfirst⟩ := h
  exact ⟨first, later ++ rest, rfl, hfirst⟩

theorem Opens.skipBlanks {source : List Char} (h : Opens source) :
    skipBlanks source = source := by
  obtain ⟨first, rest, rfl, hblank, -⟩ := h
  simp [Value.skipBlanks, hblank]

theorem Opens.exists_fuel {source : List Char} (h : Opens source) {fuel : Nat}
    (enough : source.length ≤ fuel) : ∃ less, fuel = less + 1 := by
  obtain ⟨first, rest, rfl, -⟩ := h
  rw [List.length_cons] at enough
  exact ⟨fuel - 1, by omega⟩

/-- Whether a character may be the first one of a written integer. -/
def StartsNumber (first : Char) : Prop := first = '-' ∨ first.isDigit = true

theorem startsNumber_writeInt (number : Int) :
    ∃ first rest, writeInt number = first :: rest ∧ StartsNumber first := by
  unfold writeInt
  split
  · exact ⟨_, _, rfl, .inl rfl⟩
  · obtain ⟨first, digits, hdigits⟩ := List.exists_cons_of_ne_nil
      (Nat.toDigits_ne_nil (n := number.natAbs) (b := 10))
    exact ⟨first, digits, hdigits, .inr (forall_isDigit_toDigits number.natAbs _
      (by simp [hdigits]))⟩

theorem StartsNumber.ne {first : Char} (h : StartsNumber first) (other : Char)
    (apart : ¬(other = '-' ∨ other.isDigit = true)) : first ≠ other := by
  rintro rfl
  exact apart h

theorem StartsNumber.not_blank {first : Char} (h : StartsNumber first) :
    isBlank first = false := by
  have hspace := h.ne ' ' (by decide)
  have htab := h.ne '\t' (by decide)
  have hline := h.ne '\n' (by decide)
  have hreturn := h.ne '\r' (by decide)
  simp [isBlank, hspace, htab, hline, hreturn]

theorem opens_writeChars {value : Value} (plain : Plain value) : Opens (writeChars value) := by
  cases plain with
  | null => exact ⟨_, _, rfl, by decide, by decide⟩
  | bool truth => cases truth <;> exact ⟨_, _, rfl, by decide, by decide⟩
  | int number =>
      obtain ⟨first, rest, hwritten, hstarts⟩ := startsNumber_writeInt number
      exact ⟨first, rest, hwritten, hstarts.not_blank, hstarts.ne _ (by decide)⟩
  | text content => exact ⟨_, _, rfl, by decide, by decide⟩
  | list => exact ⟨_, _, rfl, by decide, by decide⟩
  | record => exact ⟨_, _, rfl, by decide, by decide⟩

theorem readValue?_number {first : Char} (starts : StartsNumber first) (fuel : Nat)
    (source : List Char) :
    readValue? (fuel + 1) (first :: source) = readNumber? (first :: source) := by
  have hskip : skipBlanks (first :: source) = first :: source := by
    simp [skipBlanks, starts.not_blank]
  rw [readValue?, hskip]
  split
  all_goals first
    | rfl
    | (rename_i same
       cases same
       exact absurd rfl (starts.ne _ (by decide)))

/-- Whether a value is read from what has been written for it. -/
def ReadsBack (value : Value) : Prop :=
  ∀ fuel rest, (writeChars value).length ≤ fuel → EndsNumber rest →
    readValue? fuel (writeChars value ++ rest) = some (value, rest)

theorem endsNumber_cons {next : Char} (closes : next = ',' ∨ next = ']' ∨ next = '\x7d')
    (rest : List Char) : EndsNumber (next :: rest) := by
  rintro _ ⟨⟩
  rcases closes with rfl | rfl | rfl <;> decide

/-! ## Lists -/

theorem opens_writeItems {item : Value} (plain : Plain item) (items : List Value) :
    Opens (writeItems (item :: items)) := by
  cases items with
  | nil => exact (opens_writeChars plain).append [']']
  | cons next items => exact (opens_writeChars plain).append (',' :: writeItems (next :: items))

theorem readItems?_writeItems {item : Value} {items : List Value}
    (reads : ∀ other ∈ item :: items, ReadsBack other) {fuel : Nat}
    (enough : (writeItems (item :: items)).length ≤ fuel) (rest : List Char) :
    readItems? fuel (writeItems (item :: items) ++ rest) = some (item :: items, rest) := by
  induction items generalizing item fuel with
  | nil =>
      have hwritten : writeItems [item] = writeChars item ++ [']'] := rfl
      rw [hwritten, List.length_append, List.length_singleton] at enough
      obtain ⟨fuel, rfl⟩ := Nat.exists_eq_add_one.mpr (show 0 < fuel by omega)
      have hread := reads item List.mem_cons_self fuel (']' :: rest) (by omega)
        (endsNumber_cons (.inr (.inl rfl)) rest)
      rw [hwritten, List.append_assoc, List.singleton_append, readItems?, hread]
      rfl
  | cons next items ih =>
      have hwritten : writeItems (item :: next :: items) =
          writeChars item ++ ',' :: writeItems (next :: items) := rfl
      rw [hwritten, List.length_append, List.length_cons] at enough
      obtain ⟨fuel, rfl⟩ := Nat.exists_eq_add_one.mpr (show 0 < fuel by omega)
      have hread := reads item List.mem_cons_self fuel (',' :: (writeItems (next :: items) ++ rest))
        (by omega) (endsNumber_cons (.inl rfl) _)
      have henough : (writeItems (next :: items)).length ≤ fuel := by omega
      have hrest := ih (fun other member => reads other (List.mem_cons_of_mem _ member)) henough
      rw [hwritten, List.append_assoc, List.cons_append, readItems?, hread]
      change (readItems? fuel (writeItems (next :: items) ++ rest) >>= fun read =>
        pure (item :: read.1, read.2)) = _
      rw [hrest]
      rfl

theorem readValue?_list {source : List Char} (opens : Opens source) (fuel : Nat) :
    readValue? (fuel + 1) ('[' :: source) =
      (readItems? fuel source).map fun read => (list read.1, read.2) := by
  have hskip : skipBlanks ('[' :: source) = '[' :: source := rfl
  rw [readValue?, hskip]
  simp only [opens.skipBlanks]
  obtain ⟨first, rest, rfl, -, hopen⟩ := opens
  split
  · rename_i same
    cases same
    exact absurd rfl hopen
  · rfl

theorem ReadsBack.list {items : List Value} (plain : ∀ item ∈ items, Plain item)
    (reads : ∀ item ∈ items, ReadsBack item) : ReadsBack (list items) := by
  intro fuel rest enough _
  have hwritten : writeChars (Value.list items) = '[' :: writeItems items := rfl
  rw [hwritten, List.length_cons] at enough
  obtain ⟨fuel, rfl⟩ := Nat.exists_eq_add_one.mpr (show 0 < fuel by omega)
  rw [hwritten, List.cons_append]
  cases items with
  | nil => rfl
  | cons item items =>
      have hopens := (opens_writeItems (plain item List.mem_cons_self) items).append rest
      rw [readValue?_list hopens, readItems?_writeItems reads (by omega) rest]
      rfl

/-! ## Records -/

theorem opens_writeMembers (member : String × Value) (members : List (String × Value)) :
    ∃ rest, writeMembers (member :: members) = '"' :: rest := by
  cases members with
  | nil => exact ⟨_, rfl⟩
  | cons next members => exact ⟨_, rfl⟩

/-- One member of a record, up to its value. -/
theorem readMembers?_member {name : String} {item : Value} (reads : ReadsBack item) {fuel : Nat}
    (enough : (writeChars item).length ≤ fuel) (done : List (String × Value)) {rest : List Char}
    (ends : EndsNumber rest) :
    readMembers? (fuel + 1) done (writeText name ++ ':' :: writeChars item ++ rest) =
      match skipBlanks rest with
      | '\x7d' :: rest => some (Table.writeRow name item done, rest)
      | ',' :: rest => readMembers? fuel (Table.writeRow name item done) rest
      | _ => none := by
  have hskip : skipBlanks (writeText name ++ (':' :: writeChars item ++ rest)) =
      writeText name ++ (':' :: writeChars item ++ rest) := rfl
  rw [readMembers?, List.append_assoc, hskip, readText?_writeText]
  change (readValue? fuel (writeChars item ++ rest) >>= fun read => _) = _
  rw [reads fuel rest enough ends]
  rfl

theorem readMembers?_writeMembers {member : String × Value} {members done : List (String × Value)}
    (reads : ∀ other ∈ member :: members, ReadsBack other.2)
    (distinct : ((done ++ member :: members).map Prod.fst).Nodup) {fuel : Nat}
    (enough : (writeMembers (member :: members)).length ≤ fuel) (rest : List Char) :
    readMembers? fuel done (writeMembers (member :: members) ++ rest) =
      some (done ++ member :: members, rest) := by
  induction members generalizing member done fuel with
  | nil =>
      have hwritten : writeMembers [member] =
          writeText member.1 ++ ':' :: writeChars member.2 ++ ['\x7d'] := rfl
      rw [hwritten] at enough ⊢
      simp only [List.length_append, List.length_cons] at enough
      obtain ⟨fuel, rfl⟩ := Nat.exists_eq_add_one.mpr (show 0 < fuel by omega)
      rw [List.append_assoc, List.singleton_append,
        readMembers?_member (reads member List.mem_cons_self) (by omega) done
          (endsNumber_cons (.inr (.inr rfl)) rest), Table.writeRow_of_nodup distinct]
      rfl
  | cons next members ih =>
      have hwritten : writeMembers (member :: next :: members) =
          writeText member.1 ++ ':' :: writeChars member.2 ++
            ',' :: writeMembers (next :: members) := rfl
      rw [hwritten] at enough ⊢
      simp only [List.length_append, List.length_cons] at enough
      obtain ⟨fuel, rfl⟩ := Nat.exists_eq_add_one.mpr (show 0 < fuel by omega)
      rw [List.append_assoc, List.cons_append,
        readMembers?_member (reads member List.mem_cons_self) (by omega) done
          (endsNumber_cons (.inl rfl) _), Table.writeRow_of_nodup distinct]
      have hsplit : done ++ member :: next :: members = (done ++ [member]) ++ next :: members := by
        simp
      rw [hsplit] at distinct ⊢
      exact ih (fun other hother => reads other (List.mem_cons_of_mem _ hother)) distinct
        (by omega)

theorem readValue?_record {source : List Char} (opens : ∃ rest, source = '"' :: rest)
    (fuel : Nat) :
    readValue? (fuel + 1) ('\x7b' :: source) =
      (readMembers? fuel [] source).map fun read => (record read.1, read.2) := by
  obtain ⟨rest, rfl⟩ := opens
  rfl

theorem ReadsBack.record {members : List (String × Value)}
    (distinct : (members.map Prod.fst).Nodup) (reads : ∀ member ∈ members, ReadsBack member.2) :
    ReadsBack (record members) := by
  intro fuel rest enough _
  have hwritten : writeChars (Value.record members) = '\x7b' :: writeMembers members := rfl
  rw [hwritten, List.length_cons] at enough
  obtain ⟨fuel, rfl⟩ := Nat.exists_eq_add_one.mpr (show 0 < fuel by omega)
  rw [hwritten, List.cons_append]
  cases members with
  | nil => rfl
  | cons member members =>
      obtain ⟨later, hlater⟩ := opens_writeMembers member members
      rw [readValue?_record ⟨later ++ rest, by rw [hlater, List.cons_append]⟩,
        readMembers?_writeMembers reads distinct (by omega) rest]
      rfl

/-! ## Whole texts -/

/-- By induction on the value: every reader of a part stops where the part ends. -/
theorem readsBack_of_plain {value : Value} (plain : Plain value) : ReadsBack value := by
  induction plain with
  | null =>
      intro fuel rest enough _
      obtain ⟨fuel, rfl⟩ := (opens_writeChars .null).exists_fuel enough
      rfl
  | bool truth =>
      intro fuel rest enough _
      obtain ⟨fuel, rfl⟩ := (opens_writeChars (.bool truth)).exists_fuel enough
      cases truth <;> rfl
  | int number =>
      intro fuel rest enough ends
      obtain ⟨fuel, rfl⟩ := (opens_writeChars (.int number)).exists_fuel enough
      obtain ⟨first, digits, hwritten, hstarts⟩ := startsNumber_writeInt number
      have hchars : writeChars (int number) = first :: digits := hwritten
      have hread := readNumber?_writeInt ends number
      rw [hwritten, List.cons_append] at hread
      rw [hchars, List.cons_append, readValue?_number hstarts, hread]
  | text content =>
      intro fuel rest enough _
      obtain ⟨fuel, rfl⟩ := (opens_writeChars (.text content)).exists_fuel enough
      change (readText? (writeText content ++ rest)).map (fun read => (text read.1, read.2)) = _
      rw [readText?_writeText]
      rfl
  | list plain ih => exact .list plain ih
  | record distinct plain ih => exact .record distinct ih

/-- The text of a plain value is read as that value. -/
theorem ofJson?_toJson {value : Value} (plain : Plain value) :
    ofJson? value.toJson = some value := by
  have hread := readsBack_of_plain plain ((writeChars value).length + 1) [] (by omega) (by
    rintro _ ⟨⟩)
  rw [List.append_nil] at hread
  unfold ofJson? toJson
  rw [String.toList_ofList]
  dsimp only
  rw [hread]
  rfl

end StackPolicy.Value
