/-
# OneShot.Proofs.Json.Scanning -- printed text is scanned back

`scanValue_chars`: the scanner, set on the text of a value and whatever stands behind it,
finds the draft of the value and leaves what stands behind.  The value has to be *plain*:
a floating-point number is not printed digit by digit, and an integer beyond 64 bits is
scanned as one.  What stands behind must not go on with a number (`Number.Stops`), which
in a container the comma and the bracket see to.

The scanner is bounded by a count that each of its calls lowers by one.  From one value
to the next it makes three calls, and there is at least one character, so three times the
length of the text is enough.
-/
import OneShot.Json.Parser
import OneShot.Json.Printer

namespace OneShot.Text.Numeral

set_option autoImplicit false

theorem isDigit_digitChar {d : Nat} (small : d < 10) : (digitChar d).isDigit = true := by
  have : ∀ d : Fin 10, (digitChar d.val).isDigit = true := by decide
  exact this ⟨d, small⟩

theorem digitChar_ne_zero {d : Nat} (small : d < 10) (positive : 0 < d) : digitChar d ≠ '0' := by
  have : ∀ d : Fin 10, 0 < d.val → digitChar d.val ≠ '0' := by decide
  exact this ⟨d, small⟩ positive

theorem isDigit_of_mem_reversed (bound n : Nat) :
    ∀ c ∈ reversed 10 bound n, c.isDigit = true := by
  induction bound generalizing n with
  | zero => simp [reversed]
  | succ bound ih =>
      unfold reversed
      split
      · rename_i small
        simpa using isDigit_digitChar small
      · have digit := isDigit_digitChar (Nat.mod_lt n (by decide : 0 < 10))
        exact List.forall_mem_cons.2 ⟨digit, ih _⟩

/-- Decimal text has nothing but digits. -/
theorem isDigit_of_mem_chars (n : Nat) : ∀ c ∈ chars 10 n, c.isDigit = true := by
  intro c member
  exact isDigit_of_mem_reversed _ n c (List.mem_reverse.1 member)

/-- The digits of a positive number end, least significant first, with one that is not zero. -/
theorem reversed_last (bound n : Nat) (positive : 0 < n) (fits : n < bound) :
    ∃ lower d, reversed 10 bound n = lower ++ [d] ∧ d ≠ '0' := by
  induction bound generalizing n with
  | zero => omega
  | succ bound ih =>
      unfold reversed
      split
      · rename_i small
        exact ⟨[], _, rfl, digitChar_ne_zero small positive⟩
      · obtain ⟨lower, d, eq, nonzero⟩ := ih (n / 10) (by omega) (by omega)
        exact ⟨digitChar (n % 10) :: lower, d, by rw [eq]; rfl, nonzero⟩

/-- Decimal text has no leading zero, unless it is a single digit. -/
theorem chars_head (n : Nat) :
    ∃ d rest, chars 10 n = d :: rest ∧ (d = '0' → rest = []) := by
  rcases Nat.eq_zero_or_pos n with rfl | positive
  · exact ⟨'0', [], rfl, fun _ => rfl⟩
  · obtain ⟨lower, d, eq, nonzero⟩ := reversed_last (n + 1) n positive (Nat.lt_succ_self n)
    refine ⟨d, lower.reverse, ?_, fun zero => absurd zero nonzero⟩
    rw [chars, eq, List.reverse_append]
    rfl

end OneShot.Text.Numeral

namespace OneShot.Json

set_option autoImplicit false

open Text

namespace Number

/-- The text does not go on with a number. -/
def Stops (rest : List Char) : Prop :=
  ∀ c ∈ rest.head?, c.isDigit = false ∧ c ≠ '.' ∧ c ≠ 'e' ∧ c ≠ 'E'

theorem takeWhile_digits {run rest : List Char} (digits : ∀ c ∈ run, c.isDigit = true)
    (stops : Stops rest) :
    (run ++ rest).takeWhile Char.isDigit = run ∧ (run ++ rest).dropWhile Char.isDigit = rest := by
  rw [List.takeWhile_append_of_pos digits, List.dropWhile_append_of_pos digits]
  cases rest with
  | nil => simp
  | cons c rest =>
      have other := (stops c rfl).1
      simp [other]

theorem scanWhole_chars (n : Nat) {rest : List Char} (stops : Stops rest) :
    scanWhole (Numeral.chars 10 n ++ rest) = .ok (Numeral.chars 10 n, rest) := by
  obtain ⟨run, left⟩ := takeWhile_digits (Numeral.isDigit_of_mem_chars n) stops
  obtain ⟨d, others, eq, leading⟩ := Numeral.chars_head n
  simp only [scanWhole, run, left]
  rw [eq]
  by_cases zero : d = '0'
  · rw [leading zero, zero]
    rfl
  · split
    · rename_i none_; cases none_
    · rename_i same; cases same; exact absurd rfl zero
    · rfl

theorem scanFraction_of_stops {rest : List Char} (stops : Stops rest) :
    scanFraction rest = .ok (none, rest) := by
  unfold scanFraction
  split
  · exact absurd rfl (stops '.' rfl).2.1
  · rfl

theorem scanExponent_of_stops {rest : List Char} (stops : Stops rest) :
    scanExponent rest = .ok (none, rest) := by
  unfold scanExponent
  split
  · rename_i c rest
    obtain ⟨-, -, small, large⟩ := stops c rfl
    rw [if_neg (by simp [small, large])]
  · rfl

theorem scanUnsigned_chars (negative : Bool) (n : Nat) {rest : List Char} (stops : Stops rest) :
    scanUnsigned negative (Numeral.chars 10 n ++ rest) =
      .ok (⟨negative, Numeral.chars 10 n, [], 0, true⟩, rest) := by
  simp only [scanUnsigned, scanWhole_chars n stops, scanFraction_of_stops stops,
    scanExponent_of_stops stops, bind, Except.bind]
  rfl

/-- An integer that is neither too small nor too large to be read as one. -/
def Fits (n : Int) : Prop := -9223372036854775808 ≤ n ∧ n < 18446744073709551616

theorem value_of_fits {n : Int} (fits : Fits n) :
    Parts.value ⟨decide (n < 0), Numeral.chars 10 n.natAbs, [], 0, true⟩ = .ok (.int n) := by
  obtain ⟨low, high⟩ := fits
  simp only [Parts.value, Numeral.value_chars, wordBound]
  by_cases negative : n < 0
  · have size : n.natAbs ≠ 0 ∧ n.natAbs ≤ 9223372036854775808 := by omega
    have back : -(n.natAbs : Int) = n := by omega
    generalize n.natAbs = k at size back ⊢
    simp [negative, size, back]
  · have size : n.natAbs < 18446744073709551616 := by omega
    have back : (n.natAbs : Int) = n := by omega
    generalize n.natAbs = k at size back ⊢
    simp [negative, size, back]

/-- **An integer that is printed is read back.** -/
theorem scan_intChars {n : Int} (fits : Fits n) {rest : List Char} (stops : Stops rest) :
    scan (intChars n ++ rest) = (.ok (.int n), some rest) := by
  have value := value_of_fits fits
  unfold intChars
  by_cases negative : n < 0
  · rw [if_pos negative]
    rw [decide_eq_true negative] at value
    simp only [scan, List.cons_append, scanUnsigned_chars true _ stops, value]
    rfl
  · rw [if_neg negative]
    rw [decide_eq_false negative] at value
    obtain ⟨d, others, eq, -⟩ := Numeral.chars_head n.natAbs
    have digit := Numeral.isDigit_of_mem_chars n.natAbs d (by rw [eq]; exact List.mem_cons_self)
    have read := scanUnsigned_chars false n.natAbs stops
    unfold scan
    split
    · rename_i minus
      rw [eq] at minus
      cases minus
      cases digit
    · rw [read]
      show (_, some rest) = _
      rw [value]
      rfl

end Number

/-! ## Strings -/

theorem unletter?_letter? {c l : Char} (named : letter? c = some l) :
    unletter? l = some c ∧ l ≠ 'u' := by
  unfold letter? at named
  split at named <;> simp_all <;> subst named <;> decide

/-- The piece that the text of a character is cut into. -/
def Piece.of (c : Char) : Piece :=
  if letter? c = none ∧ c.toNat < 0x20 then .unit c.toNat else .char c

theorem hexUnit?_append {cs : List Char} {n : Nat} (read : hexUnit? cs = some (n, []))
    (rest : List Char) : hexUnit? (cs ++ rest) = some (n, rest) := by
  unfold hexUnit? at read
  split at read
  · split at read
    · rename_i a b c d after w x y z hexA hexB hexC hexD
      simp only [Option.some.injEq, Prod.mk.injEq] at read
      obtain ⟨rfl, rfl⟩ := read
      simp [hexUnit?, hexA, hexB, hexC, hexD]
    · cases read
  · cases read

theorem hexUnit?_padded {n : Nat} (control : n < 0x20) (rest : List Char) :
    hexUnit? (Numeral.padded 16 4 n ++ rest) = some (n, rest) := by
  have read : ∀ n : Fin 0x20, hexUnit? (Numeral.padded 16 4 n.val) = some (n.val, []) := by decide
  exact hexUnit?_append (read ⟨n, control⟩) rest

/-- The text of one character is cut into one piece. -/
theorem scanPieces_escaped (c : Char) (bound : Nat) (rest : List Char) :
    scanPieces (bound + 1) (escaped c ++ rest) =
      (Piece.of c :: (scanPieces bound rest).1, (scanPieces bound rest).2) := by
  cases named : letter? c with
  | some l =>
      obtain ⟨back, notUnit⟩ := unletter?_letter? named
      have piece : Piece.of c = .char c := by simp [Piece.of, named]
      simp only [escaped, named, piece, List.cons_append, List.nil_append]
      rw [scanPieces, back]
      exact notUnit
  | none =>
      by_cases control : c.toNat < 0x20
      · have piece : Piece.of c = .unit c.toNat := by simp [Piece.of, named, control]
        simp only [escaped, named, if_pos control, piece, List.cons_append]
        simp only [scanPieces, hexUnit?_padded control]
      · have piece : Piece.of c = .char c := by simp [Piece.of, control]
        have plain : c ≠ '"' ∧ c ≠ '\\' := by
          constructor <;> rintro rfl <;> cases named
        simp only [escaped, named, if_neg control, piece, List.cons_append, List.nil_append]
        rw [scanPieces.eq_def]
        split <;> simp_all

theorem scanPieces_text (text rest : List Char) (bound : Nat) (enough : text.length < bound) :
    scanPieces bound (text.flatMap escaped ++ '"' :: rest) = (text.map Piece.of, .ok rest) := by
  induction text generalizing bound with
  | nil =>
      obtain ⟨bound, rfl⟩ := Nat.exists_eq_succ_of_ne_zero (Nat.ne_of_gt enough)
      rfl
  | cons c text ih =>
      obtain ⟨bound, rfl⟩ := Nat.exists_eq_succ_of_ne_zero (Nat.ne_of_gt (Nat.zero_lt_of_lt enough))
      rw [List.flatMap_cons, List.append_assoc, scanPieces_escaped,
        ih bound (Nat.lt_of_succ_lt_succ enough)]
      rfl

theorem assemble_text (atEnd : Break) (text : List Char) :
    assemble atEnd (text.map Piece.of) = .ok text := by
  induction text with
  | nil => rfl
  | cons c text ih =>
      by_cases control : letter? c = none ∧ c.toNat < 0x20
      · have unpaired : isLead c.toNat = false ∧ isTrail c.toNat = false := by
          constructor
          · simp [isLead]; omega
          · simp [isTrail]; omega
        rw [List.map_cons, Piece.of, if_pos control, assemble.eq_def]
        simp only [unpaired, ih, Char.ofNat_toNat]
        rfl
      · simp only [List.map_cons, Piece.of, if_neg control, assemble, ih]
        rfl

theorem length_le_flatMap_escaped (text : List Char) :
    text.length ≤ (text.flatMap escaped).length := by
  induction text with
  | nil => simp
  | cons c text ih =>
      have some_ : 1 ≤ (escaped c).length := by
        unfold escaped
        split
        · simp
        · split <;> simp
      rw [List.flatMap_cons, List.length_append, List.length_cons]
      omega

/-- **A string that is printed is read back**, whatever it holds. -/
theorem scanString_stringChars (s : String) (rest : List Char) :
    scanString (s.toList.flatMap escaped ++ '"' :: rest) = (.ok s, some rest) := by
  have room := length_le_flatMap_escaped s.toList
  have pieces := scanPieces_text s.toList rest
    ((s.toList.flatMap escaped ++ '"' :: rest).length + 1)
    (by rw [List.length_append, List.length_cons]; omega)
  simp only [scanString, pieces, assemble_text]
  simp [Found.ok, Except.map]

/-! ## Values -/

mutual

/-- The value, and all that it holds, has a property. -/
def All (p : Json → Prop) : Json → Prop
  | array items => p (array items) ∧ AllItems p items
  | object members => p (object members) ∧ AllMembers p members
  | v => p v

def AllItems (p : Json → Prop) : List Json → Prop
  | [] => True
  | v :: rest => v.All p ∧ AllItems p rest

def AllMembers (p : Json → Prop) : List (String × Json) → Prop
  | [] => True
  | m :: rest => AllMember p m ∧ AllMembers p rest

def AllMember (p : Json → Prop) : String × Json → Prop
  | (_, v) => v.All p

end

/-- Not a floating-point number, and not an integer beyond what is read as one. -/
def Plain : Json → Prop
  | int n => Number.Fits n
  | float _ => False
  | _ => True

theorem chars_head : ∀ {v : Json}, v.All Plain →
    ∃ c rest, v.chars = c :: rest ∧ isBlank c = false ∧ c ≠ ']'
  | null, _ => ⟨_, _, rfl, by decide⟩
  | bool true, _ => ⟨_, _, rfl, by decide⟩
  | bool false, _ => ⟨_, _, rfl, by decide⟩
  | string _, _ => ⟨_, _, rfl, by decide⟩
  | array _, _ => ⟨_, _, rfl, by decide⟩
  | object _, _ => ⟨_, _, rfl, by decide⟩
  | int n, _ => by
      show ∃ c rest, intChars n = c :: rest ∧ _
      unfold intChars
      split
      · exact ⟨_, _, rfl, by decide⟩
      · obtain ⟨d, rest, eq, -⟩ := Numeral.chars_head n.natAbs
        have digit := Numeral.isDigit_of_mem_chars n.natAbs d (by rw [eq]; exact List.mem_cons_self)
        refine ⟨d, rest, eq, ?_, ?_⟩
        · simp only [isBlank, Bool.or_eq_false_iff, decide_eq_false_iff_not]
          refine ⟨⟨⟨?_, ?_⟩, ?_⟩, ?_⟩ <;> rintro rfl <;> cases digit
        · rintro rfl
          cases digit

theorem skipBlanks_cons {c : Char} (solid : isBlank c = false) (rest : List Char) :
    skipBlanks (c :: rest) = c :: rest := by
  simp [skipBlanks, solid]

theorem Number.stops_cons {c : Char} (other : c.isDigit = false ∧ c ≠ '.' ∧ c ≠ 'e' ∧ c ≠ 'E')
    (rest : List Char) : Stops (c :: rest) := by
  intro d head
  cases head
  exact other

theorem stops_moreItems (items : List Json) (rest : List Char) :
    Number.Stops (moreItems items ++ rest) := by
  cases items <;> exact Number.stops_cons (by decide) _

theorem stops_moreMembers (members : List (String × Json)) (rest : List Char) :
    Number.Stops (moreMembers members ++ rest) := by
  cases members <;> exact Number.stops_cons (by decide) _

theorem scanValue_int {n : Int} (fits : Number.Fits n) (bound : Nat) {rest : List Char}
    (stops : Number.Stops rest) :
    scanValue (bound + 1) (intChars n ++ rest) = (.scalar (.ok (.int n)), some rest) := by
  have read := Number.scan_intChars fits stops
  -- what an integer starts with, and that no other value starts so
  obtain ⟨c, others, eq, start⟩ :
      ∃ c others, intChars n = c :: others ∧ (c = '-' ∨ c.isDigit = true) := by
    unfold intChars
    split
    · exact ⟨_, _, rfl, .inl rfl⟩
    · obtain ⟨d, others, eq, -⟩ := Numeral.chars_head n.natAbs
      exact ⟨d, others, eq,
        .inr (Numeral.isDigit_of_mem_chars n.natAbs d (by rw [eq]; exact List.mem_cons_self))⟩
  have alone : isBlank c = false ∧ c ≠ '"' ∧ c ≠ '[' ∧ c ≠ '\x7b' ∧ c ≠ 'n' ∧ c ≠ 't' ∧
      c ≠ 'f' := by
    refine ⟨?_, ?_, ?_, ?_, ?_, ?_, ?_⟩
    · simp only [isBlank, Bool.or_eq_false_iff, decide_eq_false_iff_not]
      refine ⟨⟨⟨?_, ?_⟩, ?_⟩, ?_⟩ <;> rintro rfl <;> simp at start
    all_goals rintro rfl; simp at start
  obtain ⟨solid, noString, noArray, noObject, noNull, noTrue, noFalse⟩ := alone
  rw [eq, List.cons_append] at read ⊢
  simp only [scanValue, skipBlanks_cons solid, if_neg noString, if_neg noArray, if_neg noObject,
    if_neg noNull, if_neg noTrue, if_neg noFalse, if_pos start, read]

theorem scanItem_cons {v : Json} {bound : Nat} {text rest after : List Char} {items : Items}
    (value : scanValue bound text = (Draft.ofJson v, some after))
    (others : scanItems bound false after = (items, some rest)) :
    scanItem (bound + 1) text = (.item (Draft.ofJson v) items, some rest) := by
  simp only [scanItem, value, others]

theorem scanMember_cons {key : String} {v : Json} {bound : Nat} {text rest after : List Char}
    {members : Members} (value : scanValue bound text = (Draft.ofJson v, some after))
    (others : scanMembers bound false after = (members, some rest)) :
    scanMember (bound + 1) (key.toList.flatMap escaped ++ '"' :: ':' :: text) =
      (.member (.ok key) none (Draft.ofJson v) members, some rest) := by
  have colon : skipBlanks (':' :: text) = ':' :: text := skipBlanks_cons (by decide) text
  simp only [scanMember, scanString_stringChars, colon, value, others]

/-- Behind the bracket stands the first item. -/
theorem scanValue_array {c : Char} {bound : Nat} {tail rest : List Char} {items : Items}
    (solid : isBlank c = false) (more : c ≠ ']')
    (found : scanItem bound (c :: tail) = (items, some rest)) :
    scanValue (bound + 2) ('[' :: c :: tail) = (.array items, some rest) := by
  have bracket : skipBlanks ('[' :: c :: tail) = '[' :: c :: tail := skipBlanks_cons (by decide) _
  simp only [scanValue, bracket, scanItems, skipBlanks_cons solid, if_neg more, found]
  rfl

/-- Behind the brace stands the quote of the first key. -/
theorem scanValue_object {bound : Nat} {tail rest : List Char} {members : Members}
    (found : scanMember bound tail = (members, some rest)) :
    scanValue (bound + 2) ('\x7b' :: '"' :: tail) = (.object members, some rest) := by
  have brace : skipBlanks ('\x7b' :: '"' :: tail) = '\x7b' :: '"' :: tail :=
    skipBlanks_cons (by decide) _
  have quote : skipBlanks ('"' :: tail) = '"' :: tail := skipBlanks_cons (by decide) _
  simp only [scanValue, brace, scanMembers, quote, found]
  rfl

/-- Behind the comma stands the next item. -/
theorem scanItems_comma {bound : Nat} {tail rest : List Char} {items : Items}
    (found : scanItem bound tail = (items, some rest)) :
    scanItems (bound + 1) false (',' :: tail) = (items, some rest) := by
  have comma : skipBlanks (',' :: tail) = ',' :: tail := skipBlanks_cons (by decide) _
  simp only [scanItems, comma, found]
  rfl

/-- Behind the comma stands the quote of the next key. -/
theorem scanMembers_comma {bound : Nat} {tail rest : List Char} {members : Members}
    (found : scanMember bound tail = (members, some rest)) :
    scanMembers (bound + 1) false (',' :: '"' :: tail) = (members, some rest) := by
  have comma : skipBlanks (',' :: '"' :: tail) = ',' :: '"' :: tail :=
    skipBlanks_cons (by decide) _
  have quote : skipBlanks ('"' :: tail) = '"' :: tail := skipBlanks_cons (by decide) _
  simp only [scanMembers, comma, quote, found]
  rfl

theorem oneMember_append (key : String) (v : Json) (rest : List Char) :
    oneMember (key, v) ++ rest =
      '"' :: (key.toList.flatMap escaped ++ '"' :: ':' :: (v.chars ++ rest)) := by
  simp [oneMember, stringChars]

theorem length_oneMember (key : String) (v : Json) :
    v.chars.length + 3 ≤ (oneMember (key, v)).length := by
  simp only [oneMember, stringChars, List.length_append, List.length_cons, List.length_nil]
  omega

mutual

/-- **A value that is printed is scanned back**, and what stands behind it is left. -/
theorem scanValue_chars : ∀ v : Json, v.All Plain → ∀ (bound : Nat) (rest : List Char),
    3 * v.chars.length ≤ bound → Number.Stops rest →
      scanValue bound (v.chars ++ rest) = (Draft.ofJson v, some rest)
  | null, _, bound, rest, enough, _ => by
      obtain ⟨bound, rfl⟩ := Nat.exists_eq_add_of_le' enough
      rfl
  | bool true, _, bound, rest, enough, _ => by
      obtain ⟨bound, rfl⟩ := Nat.exists_eq_add_of_le' enough
      rfl
  | bool false, _, bound, rest, enough, _ => by
      obtain ⟨bound, rfl⟩ := Nat.exists_eq_add_of_le' enough
      rfl
  | int n, plain, bound, rest, enough, stops => by
      obtain ⟨d, others, eq, -⟩ := chars_head (v := int n) plain
      have some_ : 1 ≤ bound := by
        rw [eq, List.length_cons] at enough
        omega
      obtain ⟨bound, rfl⟩ := Nat.exists_eq_add_of_le' some_
      exact scanValue_int plain bound stops
  | string s, _, bound, rest, enough, _ => by
      have text : (string s).chars ++ rest = '"' :: (s.toList.flatMap escaped ++ '"' :: rest) := by
        simp [chars, stringChars]
      have some_ : 1 ≤ bound := by
        simp only [chars, stringChars, List.length_append, List.length_cons] at enough
        omega
      obtain ⟨bound, rfl⟩ := Nat.exists_eq_add_of_le' some_
      rw [text]
      simp only [scanValue, skipBlanks_cons (c := '"') (by decide), scanString_stringChars]
      rfl
  | array [], _, bound, rest, enough, _ => by
      obtain ⟨bound, rfl⟩ := Nat.exists_eq_add_of_le' enough
      rfl
  | array (v :: items), plain, bound, rest, enough, _ => by
      have text : (array (v :: items)).chars ++ rest =
          '[' :: (v.chars ++ (moreItems items ++ rest)) := by
        simp [chars, itemChars]
      have length : (array (v :: items)).chars.length =
          v.chars.length + (moreItems items).length + 1 := by
        simp [chars, itemChars]
      obtain ⟨bound, rfl⟩ := Nat.exists_eq_add_of_le' (Nat.le_trans (by omega : 3 ≤ _) enough)
      have value := scanValue_chars v plain.2.1 bound (moreItems items ++ rest) (by omega)
        (stops_moreItems items rest)
      have others := scanItems_more items plain.2.2 bound rest (by omega)
      have item := scanItem_cons value others
      obtain ⟨c, tail, eq, solid, more⟩ := chars_head plain.2.1
      rw [eq, List.cons_append] at item
      rw [text, eq, List.cons_append]
      exact scanValue_array solid more item
  | object [], _, bound, rest, enough, _ => by
      obtain ⟨bound, rfl⟩ := Nat.exists_eq_add_of_le' enough
      rfl
  | object ((key, v) :: members), plain, bound, rest, enough, _ => by
      have text : (object ((key, v) :: members)).chars ++ rest =
          '\x7b' :: (oneMember (key, v) ++ (moreMembers members ++ rest)) := by
        simp [chars, memberChars]
      have length : (object ((key, v) :: members)).chars.length =
          (oneMember (key, v)).length + (moreMembers members).length + 1 := by
        simp [chars, memberChars]
      have first := length_oneMember key v
      obtain ⟨bound, rfl⟩ := Nat.exists_eq_add_of_le' (Nat.le_trans (by omega : 3 ≤ _) enough)
      have value := scanValue_chars v plain.2.1 bound (moreMembers members ++ rest) (by omega)
        (stops_moreMembers members rest)
      have others := scanMembers_more members plain.2.2 bound rest (by omega)
      rw [text, oneMember_append]
      exact scanValue_object (scanMember_cons value others)

theorem scanItems_more : ∀ items : List Json, AllItems Plain items →
    ∀ (bound : Nat) (rest : List Char), 3 * (moreItems items).length ≤ bound →
      scanItems bound false (moreItems items ++ rest) = (Items.ofList items, some rest)
  | [], _, bound, rest, enough => by
      obtain ⟨bound, rfl⟩ := Nat.exists_eq_add_of_le' enough
      rfl
  | v :: items, plain, bound, rest, enough => by
      have text : moreItems (v :: items) ++ rest =
          ',' :: (v.chars ++ (moreItems items ++ rest)) := by
        simp [moreItems]
      have length : (moreItems (v :: items)).length =
          v.chars.length + (moreItems items).length + 1 := by
        simp [moreItems]
      obtain ⟨bound, rfl⟩ := Nat.exists_eq_add_of_le' (Nat.le_trans (by omega : 2 ≤ _) enough)
      have value := scanValue_chars v plain.1 bound (moreItems items ++ rest) (by omega)
        (stops_moreItems items rest)
      have others := scanItems_more items plain.2 bound rest (by omega)
      rw [text]
      exact scanItems_comma (scanItem_cons value others)

theorem scanMembers_more : ∀ members : List (String × Json), AllMembers Plain members →
    ∀ (bound : Nat) (rest : List Char), 3 * (moreMembers members).length ≤ bound →
      scanMembers bound false (moreMembers members ++ rest) = (Members.ofList members, some rest)
  | [], _, bound, rest, enough => by
      obtain ⟨bound, rfl⟩ := Nat.exists_eq_add_of_le' enough
      rfl
  | (key, v) :: members, plain, bound, rest, enough => by
      have text : moreMembers ((key, v) :: members) ++ rest =
          ',' :: (oneMember (key, v) ++ (moreMembers members ++ rest)) := by
        simp [moreMembers]
      have length : (moreMembers ((key, v) :: members)).length =
          (oneMember (key, v)).length + (moreMembers members).length + 1 := by
        simp [moreMembers]
      have first := length_oneMember key v
      obtain ⟨bound, rfl⟩ := Nat.exists_eq_add_of_le' (Nat.le_trans (by omega : 2 ≤ _) enough)
      have value := scanValue_chars v plain.1 bound (moreMembers members ++ rest) (by omega)
        (stops_moreMembers members rest)
      have others := scanMembers_more members plain.2 bound rest (by omega)
      rw [text, oneMember_append]
      exact scanMembers_comma (scanMember_cons value others)

end

/-- The document of a value's compact text holds the value, and nothing behind it. -/
theorem ofString_compact {v : Json} (plain : v.All Plain) :
    Document.ofString v.compact = { value := Draft.ofJson v, trailing := false } := by
  have nothing : Number.Stops [] := fun c head => by cases head
  have found := scanValue_chars v plain (3 * v.chars.length + 3) [] (by omega) nothing
  rw [List.append_nil] at found
  simp only [Document.ofString, compact, String.toList_ofList, found]
  rfl

end OneShot.Json
