/-
The serializer of the JSON library, as `status.dump()` runs it.

`dump_escaped` decodes a string with a table of states and copies or escapes it through a buffer of
512 bytes; `dump` writes a value around its strings. `agrees_table` compares the table with the
ranges of UTF-8, and `stands_dumpByte` is what one byte of the loop does.

* `dumpEscaped_spec`: which strings are dumped, as what, and what an error says.
* `inBounds_run`: the loop stays inside the table and the buffer.
* `dump_spec`: which values are dumped, as what.
* `serializerText`: the codec with this serializer, and `publishStatus_serializerText`: what is then
  published.
-/

import FastRepo.Handles.StatusHandle
import FastRepo.Lib.JsonText
import FastRepo.Lib.Utf8

namespace FastRepo.Serializer

/-! ### The source -/

/-- The table `utf8d`: the class of each byte, and then the state after each state and class. -/
def utf8d : List Nat := [
  0, 0, 0, 0, 0, 0, 0, 0, 0, 0, 0, 0, 0, 0, 0, 0, 0, 0, 0, 0, 0, 0, 0, 0, 0, 0, 0, 0, 0, 0, 0, 0,
  0, 0, 0, 0, 0, 0, 0, 0, 0, 0, 0, 0, 0, 0, 0, 0, 0, 0, 0, 0, 0, 0, 0, 0, 0, 0, 0, 0, 0, 0, 0, 0,
  0, 0, 0, 0, 0, 0, 0, 0, 0, 0, 0, 0, 0, 0, 0, 0, 0, 0, 0, 0, 0, 0, 0, 0, 0, 0, 0, 0, 0, 0, 0, 0,
  0, 0, 0, 0, 0, 0, 0, 0, 0, 0, 0, 0, 0, 0, 0, 0, 0, 0, 0, 0, 0, 0, 0, 0, 0, 0, 0, 0, 0, 0, 0, 0,
  1, 1, 1, 1, 1, 1, 1, 1, 1, 1, 1, 1, 1, 1, 1, 1, 9, 9, 9, 9, 9, 9, 9, 9, 9, 9, 9, 9, 9, 9, 9, 9,
  7, 7, 7, 7, 7, 7, 7, 7, 7, 7, 7, 7, 7, 7, 7, 7, 7, 7, 7, 7, 7, 7, 7, 7, 7, 7, 7, 7, 7, 7, 7, 7,
  8, 8, 2, 2, 2, 2, 2, 2, 2, 2, 2, 2, 2, 2, 2, 2, 2, 2, 2, 2, 2, 2, 2, 2, 2, 2, 2, 2, 2, 2, 2, 2,
  0xA, 0x3, 0x3, 0x3, 0x3, 0x3, 0x3, 0x3, 0x3, 0x3, 0x3, 0x3, 0x3, 0x4, 0x3, 0x3,
  0xB, 0x6, 0x6, 0x6, 0x5, 0x8, 0x8, 0x8, 0x8, 0x8, 0x8, 0x8, 0x8, 0x8, 0x8, 0x8,
  0x0, 0x1, 0x2, 0x3, 0x5, 0x8, 0x7, 0x1, 0x1, 0x1, 0x4, 0x6, 0x1, 0x1, 0x1, 0x1,
  1, 1, 1, 1, 1, 1, 1, 1, 1, 1, 1, 1, 1, 1, 1, 1, 1, 0, 1, 1, 1, 1, 1, 0, 1, 0, 1, 1, 1, 1, 1, 1,
  1, 2, 1, 1, 1, 1, 1, 2, 1, 2, 1, 1, 1, 1, 1, 1, 1, 1, 1, 1, 1, 1, 1, 2, 1, 1, 1, 1, 1, 1, 1, 1,
  1, 2, 1, 1, 1, 1, 1, 1, 1, 2, 1, 1, 1, 1, 1, 1, 1, 1, 1, 1, 1, 1, 1, 3, 1, 3, 1, 1, 1, 1, 1, 1,
  1, 3, 1, 1, 1, 1, 1, 3, 1, 3, 1, 1, 1, 1, 1, 1, 1, 3, 1, 1, 1, 1, 1, 1, 1, 1, 1, 1, 1, 1, 1, 1]

/-- `UTF8_ACCEPT` and `UTF8_REJECT`. -/
def utf8Accept : Nat := 0
def utf8Reject : Nat := 1

/-- `decode`: the state and the code point after a byte. -/
def decode (state codep : Nat) (byte : UInt8) : Nat × Nat :=
  let type := utf8d.getD byte.toNat 0
  (utf8d.getD (256 + state * 16 + type) 0,
    if state ≠ utf8Accept then (byte.toNat &&& 0x3F) ||| (codep <<< 6)
    else (0xFF >>> type) &&& byte.toNat)

/-- Four lower-case hexadecimal digits, as `%04x` writes them. -/
def hex4 (n : Nat) : Bytes :=
  [JsonText.hexDigit (n / 4096 % 16), JsonText.hexDigit (n / 256 % 16),
    JsonText.hexDigit (n / 16 % 16), JsonText.hexDigit (n % 16)]

/-- What is put into the buffer for a code point that `byte` ends. -/
def escape (codepoint : Nat) (byte : UInt8) : Bytes :=
  match codepoint with
  | 0x08 => ascii "\\b"
  | 0x09 => ascii "\\t"
  | 0x0A => ascii "\\n"
  | 0x0C => ascii "\\f"
  | 0x0D => ascii "\\r"
  | 0x22 => ascii "\\\""
  | 0x5C => ascii "\\\\"
  | _ => if codepoint ≤ 0x1F then ascii "\\u" ++ hex4 codepoint else [byte]

/-- The error 316, a `type_error`: a byte that is not UTF-8 with its index, or the last byte of a
string that ends within a character. -/
inductive TypeError where
  | invalidByte (index : Nat) (byte : UInt8)
  | incomplete (last : UInt8)
deriving DecidableEq, Repr

/-- The local variables of `dump_escaped` and its output: what is written, and the bytes of
`string_buffer` that are in use. -/
structure Dumper where
  o : Bytes := []
  stringBuffer : Bytes := []
  state : Nat := utf8Accept
  codepoint : Nat := 0
deriving DecidableEq, Repr

/-- `string_buffer.size()`. -/
def bufferSize : Nat := 512

/-- One byte of the string. -/
def dumpByte (index : Nat) (d : Dumper) (byte : UInt8) : Except TypeError Dumper :=
  let (state, codepoint) := decode d.state d.codepoint byte
  if state = utf8Accept then
    let buffer := d.stringBuffer ++ escape codepoint byte
    -- one more code point takes up to 13 bytes
    if bufferSize - buffer.length < 13 then .ok ⟨d.o ++ buffer, [], state, codepoint⟩
    else .ok ⟨d.o, buffer, state, codepoint⟩
  else if state = utf8Reject then .error (.invalidByte index byte)
  else .ok ⟨d.o, d.stringBuffer ++ [byte], state, codepoint⟩

/-- The loop over the bytes of the string, from an index on. -/
def dumpBytes (index : Nat) (d : Dumper) : Bytes → Except TypeError Dumper
  | [] => .ok d
  | byte :: rest =>
    match dumpByte index d byte with
    | .error error => .error error
    | .ok next => dumpBytes (index + 1) next rest

/-- `dump_escaped`, with the error handler `strict` and without `ensure_ascii`. -/
def dumpEscaped (s : Bytes) : Except TypeError Bytes :=
  match dumpBytes 0 {} s with
  | .error error => .error error
  | .ok d =>
    if d.state = utf8Accept then .ok (d.o ++ d.stringBuffer)
    else .error (.incomplete (s.getLast?.getD 0))

/-! ### The states of the decoder -/

/-- The ranges of the bytes that are due in a state. -/
def dueIn : Nat → List Utf8.Range
  | 2 => [Utf8.tail]
  | 3 => [Utf8.tail, Utf8.tail]
  | 4 => [(0xA0, 0xBF), Utf8.tail]
  | 5 => [(0x80, 0x9F), Utf8.tail]
  | 6 => [(0x90, 0xBF), Utf8.tail, Utf8.tail]
  | 7 => [Utf8.tail, Utf8.tail, Utf8.tail]
  | 8 => [(0x80, 0x8F), Utf8.tail, Utf8.tail]
  | _ => []

/-- The least that the code point of a character can be so far in a state. -/
def leastIn : Nat → Nat
  | 2 => 2
  | 3 | 5 | 7 | 8 => 1
  | _ => 0

/-- The class of a byte. -/
def classOf (byte : Nat) : Nat :=
  if byte < 0x80 then 0
  else if byte < 0x90 then 1
  else if byte < 0xA0 then 9
  else if byte < 0xC0 then 7
  else if byte < 0xC2 then 8
  else if byte < 0xE0 then 2
  else if byte = 0xE0 then 0xA
  else if byte = 0xED then 4
  else if byte < 0xF0 then 3
  else if byte = 0xF0 then 0xB
  else if byte < 0xF4 then 6
  else if byte = 0xF4 then 5
  else 8

/-- The state after a state and a class. -/
def stateAfter (state type : Nat) : Nat :=
  match state with
  | 0 => [0, 1, 2, 3, 5, 8, 7, 1, 1, 1, 4, 6].getD type 1
  | 2 => if type = 1 ∨ type = 7 ∨ type = 9 then 0 else 1
  | 3 => if type = 1 ∨ type = 7 ∨ type = 9 then 2 else 1
  | 4 => if type = 7 then 2 else 1
  | 5 => if type = 1 ∨ type = 9 then 2 else 1
  | 6 => if type = 7 ∨ type = 9 then 3 else 1
  | 7 => if type = 1 ∨ type = 7 ∨ type = 9 then 3 else 1
  | 8 => if type = 1 then 3 else 1
  | _ => 1

theorem class_table : ∀ byte < 256, utf8d.getD byte 0 = classOf byte ∧ classOf byte < 12 := by
  decide +kernel

theorem state_table : ∀ state < 9, state ≠ utf8Reject → ∀ type < 12,
    utf8d.getD (256 + state * 16 + type) 0 = stateAfter state type := by
  decide +kernel

theorem class_eq (byte : UInt8) : utf8d.getD byte.toNat 0 = classOf byte.toNat :=
  (class_table byte.toNat byte.toNat_lt).1

/-- What the table says of a byte in a state. -/
theorem fst_decode {state : Nat} (known : state < 9 ∧ state ≠ utf8Reject) (codep : Nat)
    (byte : UInt8) : (decode state codep byte).1 = stateAfter state (classOf byte.toNat) := by
  show utf8d.getD (256 + state * 16 + utf8d.getD byte.toNat 0) 0 = _
  rw [class_eq, state_table state known.1 known.2 _ (class_table byte.toNat byte.toNat_lt).2]

/-- A state after a byte, in terms of the ranges. -/
def Agrees (state next : Nat) (byte : UInt8) : Prop :=
  next < 9 ∧ (next = utf8Reject → Utf8.step (dueIn state) byte = none) ∧
    (next ≠ utf8Reject → Utf8.step (dueIn state) byte = some (dueIn next))

instance (state next : Nat) (byte : UInt8) : Decidable (Agrees state next byte) :=
  inferInstanceAs (Decidable (_ ∧ _))

theorem agrees_table : ∀ state < 9, state ≠ utf8Reject → ∀ byte < 256,
    Agrees state (stateAfter state (classOf byte)) (UInt8.ofNat byte) := by
  decide +kernel

/-- What a state after a byte says of the code point: in the middle of a character it stays above
the least one, at its end it is no ASCII character, and an ASCII byte is its own code point. -/
def Counts (state next byte : Nat) : Prop :=
  next ≠ utf8Reject →
    if state ≠ utf8Accept then 0x80 ≤ byte ∧
      (if next = utf8Accept then 0x80 else leastIn next) ≤ leastIn state * 64 + byte % 64
    else if next = utf8Accept then (0xFF >>> classOf byte) &&& byte = byte ∧ byte < 0x80
    else leastIn next ≤ (0xFF >>> classOf byte) &&& byte ∧ 0x80 ≤ byte

instance (state next byte : Nat) : Decidable (Counts state next byte) :=
  inferInstanceAs (Decidable (_ → _))

theorem counts_table : ∀ state < 9, state ≠ utf8Reject → ∀ byte < 256,
    Counts state (stateAfter state (classOf byte)) byte := by
  decide +kernel

/-- The code point starts with what the first byte says of it. -/
theorem codepoint_start (codep : Nat) (byte : UInt8) :
    (decode utf8Accept codep byte).2 = (0xFF >>> classOf byte.toNat) &&& byte.toNat := by
  rw [← class_eq]
  rfl

theorem escape_ascii : ∀ byte < 128,
    escape byte (UInt8.ofNat byte) = JsonText.writeByte (UInt8.ofNat byte) := by
  decide +kernel

theorem writeByte_large_table : ∀ byte < 256, 0x80 ≤ byte →
    JsonText.writeByte (UInt8.ofNat byte) = [UInt8.ofNat byte] := by
  decide +kernel

theorem writeByte_large {byte : UInt8} (large : 0x80 ≤ byte.toNat) :
    JsonText.writeByte byte = [byte] := by
  have same := writeByte_large_table byte.toNat byte.toNat_lt large
  rwa [UInt8.ofNat_toNat] at same

theorem escape_large {codepoint : Nat} (large : 0x80 ≤ codepoint) (byte : UInt8) :
    escape codepoint byte = [byte] := by
  unfold escape
  split
  case h_8 => rw [if_neg (by omega)]
  all_goals omega

theorem length_escape (codepoint : Nat) (byte : UInt8) : (escape codepoint byte).length ≤ 6 := by
  unfold escape
  split
  case h_8 =>
    split
    · exact Nat.le_refl 6
    · exact (by decide : 1 ≤ 6)
  all_goals exact (by decide : 2 ≤ 6)

/-- The code point goes on by six bits. -/
theorem codepoint_decode {state : Nat} (inside : state ≠ utf8Accept) (codep : Nat) (byte : UInt8) :
    (decode state codep byte).2 = codep * 64 + byte.toNat % 64 := by
  have low : byte.toNat % 64 < 2 ^ 6 := Nat.mod_lt _ (by decide)
  show (if state ≠ utf8Accept then (byte.toNat &&& 0x3F) ||| (codep <<< 6) else _) = _
  rw [if_pos inside, show (0x3F : Nat) = 2 ^ 6 - 1 from rfl, Nat.and_two_pow_sub_one_eq_mod,
    Nat.or_comm, ← Nat.shiftLeft_add_eq_or_of_lt low, Nat.shiftLeft_eq]

theorem length_dueIn (state : Nat) : (dueIn state).length ≤ 3 := by
  unfold dueIn
  split <;> decide

/-- Only the two states at the ends of characters have nothing due. -/
theorem dueIn_eq_nil : ∀ state < 9, state ≠ utf8Reject → dueIn state = [] → state = utf8Accept := by
  decide

theorem length_of_step {due left : List Utf8.Range} {byte : UInt8} (nonempty : due ≠ [])
    (took : Utf8.step due byte = some left) : left.length + 1 = due.length := by
  cases due with
  | nil => exact absurd rfl nonempty
  | cons range due =>
    rw [Utf8.step] at took
    split at took
    · cases took
      rfl
    · cases took

/-- One byte: **it is refused when it is out of the range that is due, and else it is due, and what
is put into the buffer for it is its escape**. -/
theorem decode_cases {state codep : Nat} (known : state < 9 ∧ state ≠ utf8Reject)
    (least : leastIn state ≤ codep) (byte : UInt8) :
    ((decode state codep byte).1 = utf8Reject ∧ Utf8.step (dueIn state) byte = none) ∨
    ((decode state codep byte).1 < 9 ∧ (decode state codep byte).1 ≠ utf8Reject ∧
      Utf8.step (dueIn state) byte = some (dueIn (decode state codep byte).1) ∧
      leastIn (decode state codep byte).1 ≤ (decode state codep byte).2 ∧
      ((decode state codep byte).1 = utf8Accept →
        escape (decode state codep byte).2 byte = JsonText.writeByte byte) ∧
      ((decode state codep byte).1 ≠ utf8Accept → JsonText.writeByte byte = [byte])) := by
  have agrees := agrees_table state known.1 known.2 byte.toNat byte.toNat_lt
  have counts := counts_table state known.1 known.2 byte.toNat byte.toNat_lt
  rw [UInt8.ofNat_toNat] at agrees
  rw [← fst_decode known codep] at agrees counts
  obtain ⟨below, refuses, takes⟩ := agrees
  by_cases rejected : (decode state codep byte).1 = utf8Reject
  · exact Or.inl ⟨rejected, refuses rejected⟩
  · refine Or.inr ⟨below, rejected, takes rejected, ?_⟩
    have counted := counts rejected
    -- inside a character its number only grows; at its start the first byte says all
    by_cases inside : state ≠ utf8Accept
    · rw [if_pos inside] at counted
      obtain ⟨large, grows⟩ := counted
      have codepoint := codepoint_decode inside codep byte
      by_cases ended : (decode state codep byte).1 = utf8Accept
      · rw [if_pos ended] at grows
        refine ⟨?_, fun _ => ?_, fun notEnded => absurd ended notEnded⟩
        · rw [ended]
          exact Nat.zero_le _
        · rw [writeByte_large large, escape_large (by omega)]
      · rw [if_neg ended] at grows
        exact ⟨by omega, fun atEnd => absurd atEnd ended, fun _ => writeByte_large large⟩
    · obtain rfl := not_not.mp inside
      rw [if_neg inside, ← codepoint_start codep] at counted
      by_cases ended : (decode utf8Accept codep byte).1 = utf8Accept
      · rw [if_pos ended] at counted
        refine ⟨?_, fun _ => ?_, fun notEnded => absurd ended notEnded⟩
        · rw [ended]
          exact Nat.zero_le _
        · have plain := escape_ascii byte.toNat counted.2
          rw [UInt8.ofNat_toNat] at plain
          rw [counted.1, plain]
      · rw [if_neg ended] at counted
        exact ⟨counted.1, fun atEnd => absurd atEnd ended, fun _ => writeByte_large counted.2⟩

/-! ### The loop -/

/-- Where the loop stands after some bytes: the decoder is in the state of what is due, the output
and the buffer hold their escapes, and the buffer has room. -/
structure Stands (consumed : Bytes) (d : Dumper) : Prop where
  known : d.state < 9 ∧ d.state ≠ utf8Reject
  least : leastIn d.state ≤ d.codepoint
  due : Utf8.run [] consumed = some (dueIn d.state)
  written : d.o ++ d.stringBuffer = consumed.flatMap JsonText.writeByte
  room : d.stringBuffer.length + (dueIn d.state).length ≤ 503
  roomAtEnd : d.state = utf8Accept → d.stringBuffer.length ≤ 499

theorem stands_start : Stands [] {} :=
  ⟨by decide, Nat.le_refl _, rfl, rfl, by decide, fun _ => by decide⟩

variable {consumed : Bytes} {d : Dumper}

theorem stands_dumpByte (stands : Stands consumed d) (index : Nat) (byte : UInt8) :
    (dumpByte index d byte = .error (.invalidByte index byte) ∧
      Utf8.run [] (consumed ++ [byte]) = none) ∨
    ∃ next, dumpByte index d byte = .ok next ∧ Stands (consumed ++ [byte]) next := by
  have runs : Utf8.run [] (consumed ++ [byte]) = Utf8.step (dueIn d.state) byte := by
    rw [Utf8.run_append, stands.due, Option.bind_some, Utf8.run_cons]
    cases Utf8.step (dueIn d.state) byte <;> rfl
  have whole : (consumed ++ [byte]).flatMap JsonText.writeByte =
      d.o ++ d.stringBuffer ++ JsonText.writeByte byte := by
    rw [List.flatMap_append, ← stands.written, List.flatMap_singleton]
  rcases decode_cases stands.known stands.least byte with
    ⟨rejected, refused⟩ | ⟨below, notRejected, takes, least, atEnd, within⟩
  · refine Or.inl ⟨?_, runs.trans refused⟩
    unfold dumpByte
    simp only [rejected]
    rfl
  · refine Or.inr ?_
    have due := runs.trans takes
    have room := stands.room
    unfold dumpByte
    simp only
    by_cases ended : (decode d.state d.codepoint byte).1 = utf8Accept
    · rw [if_pos ended, atEnd ended]
      rw [ended] at below notRejected least due
      have text : d.o ++ (d.stringBuffer ++ JsonText.writeByte byte) =
          (consumed ++ [byte]).flatMap JsonText.writeByte := by
        rw [whole, List.append_assoc]
      split
      · refine ⟨_, rfl, ?_⟩
        rw [ended]
        exact ⟨⟨below, notRejected⟩, least, due, (List.append_nil _).trans text, Nat.zero_le 503,
          fun _ => Nat.zero_le _⟩
      · rename_i enough
        refine ⟨_, rfl, ?_⟩
        rw [ended]
        have short : (d.stringBuffer ++ JsonText.writeByte byte).length ≤ 499 := by
          unfold bufferSize at enough
          omega
        exact ⟨⟨below, notRejected⟩, least, due, text, Nat.le_trans short (by decide),
          fun _ => short⟩
    · rw [if_neg ended, if_neg notRejected]
      refine ⟨_, rfl, ⟨below, notRejected⟩, least, due, ?_, ?_,
        fun atAccept => absurd atAccept ended⟩
      · rw [whole, within ended, List.append_assoc]
      · have bound := length_dueIn (decode d.state d.codepoint byte).1
        show (d.stringBuffer ++ [byte]).length +
          (dueIn (decode d.state d.codepoint byte).1).length ≤ 503
        rw [List.length_append, List.length_singleton]
        by_cases start : d.state = utf8Accept
        · have short := stands.roomAtEnd start
          omega
        · have fewer := length_of_step (fun empty => start
            (dueIn_eq_nil _ stands.known.1 stands.known.2 empty)) takes
          omega

/-- The loop: **it reads all bytes, or it stops at the first one after which no UTF-8 goes on**. -/
theorem stands_dumpBytes (text : Bytes) : ∀ {consumed : Bytes} {d : Dumper} {index : Nat},
    Stands consumed d → consumed.length = index →
    (∃ last, dumpBytes index d text = .ok last ∧ Stands (consumed ++ text) last) ∨
    ∃ before byte after, text = before ++ byte :: after ∧
      dumpBytes index d text = .error (.invalidByte (consumed ++ before).length byte) ∧
      (∃ due, Utf8.run [] (consumed ++ before) = some due) ∧
      Utf8.run [] (consumed ++ before ++ [byte]) = none := by
  induction text with
  | nil =>
    intro consumed d index stands _
    rw [List.append_nil]
    exact Or.inl ⟨d, rfl, stands⟩
  | cons byte text ih =>
    rintro consumed d index stands rfl
    rcases stands_dumpByte stands consumed.length byte with ⟨failed, refused⟩ | ⟨next, took, after⟩
    · refine Or.inr ⟨[], byte, text, rfl, ?_, ⟨dueIn d.state, ?_⟩, ?_⟩
      · rw [List.append_nil, dumpBytes, failed]
      · rw [List.append_nil]
        exact stands.due
      · rw [List.append_nil]
        exact refused
    · have goesOn : dumpBytes consumed.length d (byte :: text) =
          dumpBytes (consumed.length + 1) next text := by
        rw [dumpBytes, took]
      rw [goesOn]
      have counted : (consumed ++ [byte]).length = consumed.length + 1 := by simp
      have joins : ∀ rest, consumed ++ [byte] ++ rest = consumed ++ byte :: rest := by simp
      rcases ih after counted with
        ⟨last, ran, ends⟩ | ⟨before, bad, rest, same, failed, begun, stops⟩
      · rw [joins text] at ends
        exact Or.inl ⟨last, ran, ends⟩
      · rw [joins before] at failed begun stops
        exact Or.inr ⟨byte :: before, bad, rest, by rw [same]; rfl, failed, begun, stops⟩

/-- Where `dumpEscaped` stands after its loop. -/
theorem stands_loop (s : Bytes) : (∃ last, dumpBytes 0 {} s = .ok last ∧ Stands s last) ∨
    ∃ before byte after, s = before ++ byte :: after ∧
      dumpBytes 0 {} s = .error (.invalidByte before.length byte) ∧
      (∃ due, Utf8.run [] before = some due) ∧ Utf8.run [] (before ++ [byte]) = none :=
  stands_dumpBytes s stands_start List.length_nil

/-! ### What is dumped -/

/-- The error is true of the string: it names the first byte after which no UTF-8 goes on, or the
last byte of a string that is the beginning of UTF-8 only. -/
def TrueOf (s : Bytes) : TypeError → Prop
  | .invalidByte index byte => ∃ before after, s = before ++ byte :: after ∧ before.length = index ∧
      (∃ more, Utf8.WellFormed (before ++ more)) ∧
      ¬ ∃ more, Utf8.WellFormed (before ++ [byte] ++ more)
  | .incomplete last => s.getLast? = some last ∧ ¬ Utf8.WellFormed s ∧
      ∃ more, Utf8.WellFormed (s ++ more)

theorem goesOn_of_run {text : Bytes} {due : List Utf8.Range}
    (ran : Utf8.run [] text = some due) : ∃ more, Utf8.WellFormed (text ++ more) := by
  by_contra never
  rw [Utf8.run_eq_none_iff.mpr never] at ran
  cases ran

theorem dumpEscaped_cases (s : Bytes) :
    (Utf8.WellFormed s ∧ dumpEscaped s = .ok (s.flatMap JsonText.writeByte)) ∨
    (¬ Utf8.WellFormed s ∧ ∃ error, dumpEscaped s = .error error ∧ TrueOf s error) := by
  rcases stands_loop s with
    ⟨last, ran, ends⟩ | ⟨before, byte, after, same, failed, ⟨due, begun⟩, stops⟩
  · by_cases ended : last.state = utf8Accept
    · refine Or.inl ⟨?_, ?_⟩
      · rw [← Utf8.run_eq_nil_iff, ends.due, ended]
        rfl
      · rw [dumpEscaped, ran]
        simp only
        rw [if_pos ended, ends.written]
    · have notWhole : ¬ Utf8.WellFormed s := by
        intro wellFormed
        rw [← Utf8.run_eq_nil_iff, ends.due] at wellFormed
        exact ended (dueIn_eq_nil _ ends.known.1 ends.known.2 (Option.some.inj wellFormed))
      have nonempty : s ≠ [] := by
        rintro rfl
        exact notWhole ⟨[], rfl⟩
      refine Or.inr ⟨notWhole, .incomplete (s.getLast nonempty), ?_, ?_, notWhole,
        goesOn_of_run ends.due⟩
      · rw [dumpEscaped, ran]
        simp only
        rw [if_neg ended, List.getLast?_eq_some_getLast nonempty, Option.getD_some]
      · exact List.getLast?_eq_some_getLast nonempty
  · have never := Utf8.run_eq_none_iff.mp stops
    refine Or.inr ⟨?_, .invalidByte before.length byte, ?_, before, after, same, rfl,
      goesOn_of_run begun, never⟩
    · intro wellFormed
      refine never ⟨after, ?_⟩
      rwa [List.append_assoc, List.singleton_append, ← same]
    · rw [dumpEscaped, failed]

/-- Strings: **a string is dumped exactly when it is UTF-8, byte by byte as its own escape; and the
error that is thrown for any other string is true of it**. -/
theorem dumpEscaped_spec (s : Bytes) :
    (∀ out, dumpEscaped s = .ok out ↔
      Utf8.WellFormed s ∧ out = s.flatMap JsonText.writeByte) ∧
    ∀ error, dumpEscaped s = .error error → ¬ Utf8.WellFormed s ∧ TrueOf s error := by
  rcases dumpEscaped_cases s with ⟨wellFormed, dumped⟩ | ⟨notWellFormed, thrown, failed, tells⟩
  · rw [dumped]
    refine ⟨fun out => ⟨?_, ?_⟩, fun error same => ?_⟩
    · rintro ⟨⟩
      exact ⟨wellFormed, rfl⟩
    · rintro ⟨_, rfl⟩
      rfl
    · cases same
  · rw [failed]
    refine ⟨fun out => ⟨fun same => ?_, fun both => absurd both.1 notWellFormed⟩, ?_⟩
    · cases same
    · rintro error ⟨⟩
      exact ⟨notWellFormed, tells⟩

/-- The two bytes of `é` are copied, and the quotation mark is escaped; a byte that starts no
character is named with its index. -/
example : dumpEscaped [0xC3, 0xA9, 0x22] = .ok [0xC3, 0xA9, 0x5C, 0x22] ∧
    dumpEscaped [0x61, 0xFF] = .error (.invalidByte 1 0xFF) ∧
    dumpEscaped [0x61, 0xC3] = .error (.incomplete 0xC3) := by
  decide +kernel

/-- Memory: **at every moment of the loop the decoder reads inside its table, and what the next byte
puts into the buffer ends inside it, with the null byte of `snprintf`**. -/
theorem inBounds_run {consumed : Bytes} {d : Dumper} (ran : dumpBytes 0 {} consumed = .ok d)
    (codepoint : Nat) (byte : UInt8) :
    256 + d.state * 16 + utf8d.getD byte.toNat 0 < utf8d.length ∧
      d.stringBuffer.length + (escape codepoint byte).length + 1 ≤ bufferSize := by
  rcases stands_loop consumed with ⟨last, same, stands⟩ | ⟨_, _, _, _, failed, _⟩
  · obtain rfl : last = d := Except.ok.inj (same.symm.trans ran)
    have small := (class_table byte.toNat byte.toNat_lt).2
    rw [← class_eq] at small
    have known := stands.known.1
    have length : utf8d.length = 400 := by decide +kernel
    have short := length_escape codepoint byte
    refine ⟨by omega, ?_⟩
    unfold bufferSize
    by_cases ended : last.state = utf8Accept
    · have room := stands.roomAtEnd ended
      omega
    · have room := stands.room
      have due := List.length_pos_iff.mpr fun empty => ended
        (dueIn_eq_nil _ stands.known.1 stands.known.2 empty)
      omega
  · rw [failed] at ran
    cases ran

theorem inBounds_afterFirstByte : ∃ d, dumpBytes 0 {} [0xC3] = .ok d ∧
    d.stringBuffer.length + (escape 0xE9 0xA9).length + 1 ≤ bufferSize := by
  have ran : dumpBytes 0 {} [0xC3] = .ok ⟨[], [0xC3], 2, 3⟩ := by decide +kernel
  exact ⟨_, ran, (inBounds_run ran 0xE9 0xA9).2⟩

/-! ### Values -/

/-- A string in its quotation marks. -/
def dumpString (s : Bytes) : Except TypeError Bytes :=
  (dumpEscaped s).map fun text => JsonText.quote :: text ++ [JsonText.quote]

mutual

/-- `dump`, without `pretty_print`. Integers are written in decimal digits. Floating-point numbers
and discarded values, which the switch of the source also has, are no values here: the status has
none. -/
def dump : Json Int → Except TypeError Bytes
  | .object entries => do
    let text ← dumpEntries entries
    .ok (ascii "\x7b" ++ text ++ ascii "\x7d")
  | .array items => do
    let text ← dumpItems items
    .ok (ascii "[" ++ text ++ ascii "]")
  | .string s => dumpString s
  | .bool true => .ok (ascii "true")
  | .bool false => .ok (ascii "false")
  | .number n => .ok (JsonText.writeInt n)
  | .null => .ok (ascii "null")

/-- The elements of an array: a comma after all of them but the last. -/
def dumpItems : List (Json Int) → Except TypeError Bytes
  | [] => .ok []
  | item :: items => do
    let first ← dump item
    let rest ← dumpItems items
    .ok (if items.isEmpty then first else first ++ JsonText.comma :: rest)

/-- The entries of an object: their keys and values. -/
def dumpEntries : List (Bytes × Json Int) → Except TypeError Bytes
  | [] => .ok []
  | (key, value) :: entries => do
    let name ← dumpString key
    let inner ← dump value
    let rest ← dumpEntries entries
    .ok (if entries.isEmpty then name ++ 0x3A :: inner
      else name ++ 0x3A :: inner ++ JsonText.comma :: rest)

end

/-- The string is dumped. -/
def isUtf8 (s : Bytes) : Bool := (dumpEscaped s).toOption.isSome

theorem isUtf8_iff {s : Bytes} : isUtf8 s = true ↔ Utf8.WellFormed s := by
  unfold isUtf8
  rcases dumpEscaped_cases s with ⟨wellFormed, dumped⟩ | ⟨notWellFormed, thrown, failed, _⟩
  · rw [dumped]
    exact iff_of_true rfl wellFormed
  · rw [failed]
    exact iff_of_false Bool.false_ne_true notWellFormed

/-- What is dumped for something: its text when it is good, and an error when it is not. -/
def Dumps (good : Bool) (result : Except TypeError Bytes) (text : Bytes) : Prop :=
  (good = true ∧ result = .ok text) ∨ (good = false ∧ ∃ error, result = .error error)

theorem dumps_string (s : Bytes) : Dumps (isUtf8 s) (dumpString s) (JsonText.writeString s) := by
  unfold Dumps dumpString isUtf8
  rcases dumpEscaped_cases s with ⟨_, dumped⟩ | ⟨_, thrown, failed, _⟩
  · rw [dumped]
    exact Or.inl ⟨rfl, rfl⟩
  · rw [failed]
    exact Or.inr ⟨rfl, thrown, rfl⟩

/-- One after the other: the first error is thrown. -/
theorem Dumps.andThen {good more : Bool} {result : Except TypeError Bytes} {text second : Bytes}
    {next : Bytes → Except TypeError Bytes} (one : Dumps good result text)
    (two : Dumps more (next text) second) : Dumps (good && more) (result >>= next) second := by
  rcases one with ⟨rfl, rfl⟩ | ⟨rfl, error, rfl⟩
  · exact two
  · exact Or.inr ⟨rfl, error, rfl⟩

theorem Dumps.map {good : Bool} {result : Except TypeError Bytes} {text : Bytes}
    (one : Dumps good result text) (f : Bytes → Bytes) :
    Dumps good (do let a ← result; .ok (f a)) (f text) := by
  rcases one with ⟨rfl, rfl⟩ | ⟨rfl, error, rfl⟩
  · exact Or.inl ⟨rfl, rfl⟩
  · exact Or.inr ⟨rfl, error, rfl⟩

theorem writeParts_cons {α : Type} (write : α → Bytes) (part : α) (parts : List α) :
    JsonText.writeParts write (part :: parts) = if parts.isEmpty then write part
      else write part ++ JsonText.comma :: JsonText.writeParts write parts := by
  cases parts <;> simp [JsonText.writeParts]

theorem dumps_items {items : List (Json Int)}
    (each : ∀ item ∈ items, Dumps (item.stringsAre isUtf8) (dump item) (JsonText.write item)) :
    Dumps (items.all fun item => item.stringsAre isUtf8) (dumpItems items)
      (JsonText.writeParts JsonText.write items) := by
  induction items with
  | nil => exact Or.inl ⟨rfl, rfl⟩
  | cons item items ih =>
    obtain ⟨first, others⟩ := List.forall_mem_cons.mp each
    rw [writeParts_cons, List.all_cons, dumpItems]
    exact first.andThen ((ih others).map fun rest =>
      if items.isEmpty then JsonText.write item else JsonText.write item ++ JsonText.comma :: rest)

theorem dumps_entries {entries : List (Bytes × Json Int)}
    (each : ∀ entry ∈ entries,
      Dumps (entry.2.stringsAre isUtf8) (dump entry.2) (JsonText.write entry.2)) :
    Dumps (entries.all fun entry => isUtf8 entry.1 && entry.2.stringsAre isUtf8)
      (dumpEntries entries) (JsonText.writeParts (JsonText.writeEntry JsonText.write) entries) := by
  induction entries with
  | nil => exact Or.inl ⟨rfl, rfl⟩
  | cons entry entries ih =>
    obtain ⟨key, value⟩ := entry
    obtain ⟨first, others⟩ := List.forall_mem_cons.mp each
    rw [writeParts_cons, List.all_cons, Bool.and_assoc, dumpEntries]
    exact (dumps_string key).andThen (first.andThen ((ih others).map fun rest =>
      if entries.isEmpty then JsonText.writeEntry JsonText.write (key, value)
      else JsonText.writeEntry JsonText.write (key, value) ++ JsonText.comma :: rest))

/-- Values: **a value is dumped as its compact text when all of its strings and keys are UTF-8, and
an error is thrown when one is not**. -/
theorem dumps_value (value : Json Int) :
    Dumps (value.stringsAre isUtf8) (dump value) (JsonText.write value) := by
  induction value using Json.induct with
  | null => exact Or.inl ⟨rfl, rfl⟩
  | bool value => cases value <;> exact Or.inl ⟨rfl, rfl⟩
  | number n => exact Or.inl ⟨rfl, rfl⟩
  | string s => exact dumps_string s
  | array items ih =>
    rw [Json.stringsAre, Json.every_array, JsonText.write_array, dump]
    exact (dumps_items ih).map fun text => ascii "[" ++ text ++ ascii "]"
  | object entries ih =>
    have keysAndValues : (Json.object entries).stringsAre isUtf8 =
        entries.all fun entry => isUtf8 entry.1 && entry.2.stringsAre isUtf8 := by
      rw [Json.stringsAre, Json.every_object, List.all_map, Bool.eq_iff_iff]
      simp only [Bool.and_eq_true, List.all_eq_true, Function.comp_apply, ← forall_and]
      rfl
    rw [keysAndValues, JsonText.write_object, dump]
    exact (dumps_entries ih).map fun text => ascii "\x7b" ++ text ++ ascii "\x7d"

theorem dump_eq_ok_iff {value : Json Int} {out : Bytes} : dump value = .ok out ↔
    value.stringsAre isUtf8 = true ∧ out = JsonText.write value := by
  rcases dumps_value value with ⟨good, dumped⟩ | ⟨bad, error, failed⟩
  · rw [dumped, good]
    exact ⟨fun same => ⟨rfl, (Except.ok.inj same).symm⟩, fun both => congrArg _ both.2.symm⟩
  · rw [failed, bad]
    exact iff_of_false (fun same => by cases same) fun both => Bool.false_ne_true both.1

/-! ### The dumped text -/

/-- What is written for an ASCII byte is ASCII. -/
theorem ascii_writeByte_table : ∀ byte < 128,
    Utf8.allAscii (JsonText.writeByte (UInt8.ofNat byte)) = true := by
  decide +kernel

/-- The escape of UTF-8 is UTF-8. -/
theorem wellFormed_escaped {s : Bytes} (wellFormed : Utf8.WellFormed s) :
    Utf8.WellFormed (s.flatMap JsonText.writeByte) := by
  obtain ⟨chars, rfl⟩ := wellFormed
  rw [List.flatMap_assoc]
  refine Utf8.wellFormed_flatMap fun c _ => ?_
  rcases Utf8.ascii_or_large c with ⟨byte, small, encodes⟩ | large
  · rw [encodes, List.flatMap_singleton]
    have written := ascii_writeByte_table byte.toNat small
    rw [UInt8.ofNat_toNat] at written
    exact Utf8.wellFormed_of_all written
  · have same : (String.utf8EncodeChar c).flatMap JsonText.writeByte = String.utf8EncodeChar c := by
      rw [List.flatMap_congr fun byte member =>
        writeByte_large (large byte member), List.flatMap_singleton']
    rw [same]
    exact Utf8.wellFormed_char c

theorem wellFormed_writeString {s : Bytes} (wellFormed : Utf8.WellFormed s) :
    Utf8.WellFormed (JsonText.writeString s) := by
  have quote : Utf8.WellFormed [JsonText.quote] := Utf8.wellFormed_of_all rfl
  exact Utf8.wellFormed_append
    (Utf8.wellFormed_append quote (wellFormed_escaped wellFormed)) quote

theorem lt_of_isDigit {byte : UInt8} (digit : Decimal.isDigit byte = true) :
    byte.toNat < 0x80 := by
  rw [Decimal.isDigit, Bool.and_eq_true, decide_eq_true_eq, decide_eq_true_eq] at digit
  exact Nat.lt_of_le_of_lt (UInt8.le_iff_toNat_le.mp digit.2) (by decide)

theorem wellFormed_writeInt (n : Int) : Utf8.WellFormed (JsonText.writeInt n) := by
  refine Utf8.wellFormed_ascii ?_
  cases n with
  | ofNat n => exact fun byte member => lt_of_isDigit (Decimal.isDigit_of_mem_decimal member)
  | negSucc n =>
    refine List.forall_mem_cons.mpr ⟨by decide, fun byte member => ?_⟩
    exact lt_of_isDigit (Decimal.isDigit_of_mem_decimal member)

theorem wellFormed_writeParts {α : Type} {write : α → Bytes} {parts : List α}
    (each : ∀ part ∈ parts, Utf8.WellFormed (write part)) :
    Utf8.WellFormed (JsonText.writeParts write parts) := by
  induction parts with
  | nil => exact ⟨[], rfl⟩
  | cons part parts ih =>
    obtain ⟨first, others⟩ := List.forall_mem_cons.mp each
    have comma : Utf8.WellFormed [JsonText.comma] := Utf8.wellFormed_of_all rfl
    rw [writeParts_cons]
    split
    · exact first
    · exact Utf8.wellFormed_append first (Utf8.wellFormed_append comma (ih others))

theorem isUtf8_eq : isUtf8 = fun s => decide (Utf8.WellFormed s) :=
  funext fun _ => Bool.eq_iff_iff.mpr (isUtf8_iff.trans decide_eq_true_iff.symm)

theorem wellFormed_write (value : Json Int) (strings : value.stringsAre isUtf8 = true) :
    Utf8.WellFormed (JsonText.write value) := by
  induction value using Json.induct with
  | null => exact Utf8.wellFormed_of_all rfl
  | bool value => cases value <;> exact Utf8.wellFormed_of_all rfl
  | number n => exact wellFormed_writeInt n
  | string s => exact wellFormed_writeString (isUtf8_iff.mp strings)
  | array items ih =>
    rw [Json.stringsAre, Json.every_array, List.all_eq_true] at strings
    rw [JsonText.write_array]
    exact Utf8.wellFormed_append (Utf8.wellFormed_append
      (Utf8.wellFormed_of_all (rfl : Utf8.allAscii [0x5B] = true))
      (wellFormed_writeParts fun item member => ih item member (strings item member)))
      (Utf8.wellFormed_of_all rfl)
  | object entries ih =>
    rw [Json.stringsAre, Json.every_object, Bool.and_eq_true, List.all_eq_true, List.all_eq_true]
      at strings
    rw [JsonText.write_object]
    refine Utf8.wellFormed_append (Utf8.wellFormed_append
      (Utf8.wellFormed_of_all (rfl : Utf8.allAscii [0x7B] = true))
      (wellFormed_writeParts fun entry member => ?_)) (Utf8.wellFormed_of_all rfl)
    have key := isUtf8_iff.mp (strings.1 _ (List.mem_map_of_mem member))
    have colon : Utf8.WellFormed [0x3A] := Utf8.wellFormed_of_all rfl
    exact Utf8.wellFormed_append (wellFormed_writeString key)
      (Utf8.wellFormed_append colon (ih entry member (strings.2 entry member)))

/-- Dumping: **a value is dumped exactly when all of its strings and keys are UTF-8, as its compact
text, which is UTF-8 itself**. -/
theorem dump_spec (value : Json Int) :
    (∀ out, dump value = .ok out ↔
      value.stringsAre (fun s => decide (Utf8.WellFormed s)) = true ∧
        out = JsonText.write value) ∧
    ∀ out, dump value = .ok out → Utf8.WellFormed out := by
  rw [← isUtf8_eq]
  refine ⟨fun out => dump_eq_ok_iff, fun out dumped => ?_⟩
  obtain ⟨strings, rfl⟩ := dump_eq_ok_iff.mp dumped
  exact wellFormed_write value strings

/-! ### The codec -/

/-- The value of a whole text, with strings in UTF-8. -/
def parse (text : Bytes) : Option (Json Int) :=
  match JsonText.readValue (text.length + 1) text with
  | some (value, []) => if value.ordered && value.stringsAre isUtf8 then some value else none
  | _ => none

theorem parse_dump {value : Json Int} {text : Bytes} (ordered : value.ordered = true)
    (dumped : (dump value).toOption = some text) : parse text = some value := by
  rcases dumps_value value with ⟨strings, same⟩ | ⟨_, error, failed⟩
  · rw [same] at dumped
    cases dumped
    have back := JsonText.readValue_write value ((JsonText.write value).length + 1) []
      (Nat.lt_succ_self _) JsonText.delimited_nil
    rw [List.append_nil] at back
    rw [parse, back]
    simp only [ordered, strings, Bool.and_self, if_true]
  · rw [failed] at dumped
    cases dumped

theorem clean_of_parse {text : Bytes} {value : Json Int} (read : parse text = some value) :
    value.ordered = true ∧ value.stringsAre isUtf8 = true := by
  unfold parse at read
  split at read
  · split at read
    · rename_i clean
      cases read
      exact Bool.and_eq_true_iff.mp clean
    · cases read
  · cases read

theorem parse_of_readValue_eq_none {text : Bytes}
    (unread : JsonText.readValue (text.length + 1) text = none) : parse text = none := by
  rw [parse, unread]

end FastRepo.Serializer

/-- The codec that dumps as the serializer does. -/
def serializerText : JsonCodec Int where
  ofInt n := n
  utf8 := FastRepo.Serializer.isUtf8
  parse := FastRepo.Serializer.parse
  dump value := (FastRepo.Serializer.dump value).toOption
  utf8_of_ascii _ bytes :=
    FastRepo.Serializer.isUtf8_iff.mpr (Utf8.wellFormed_ascii fun byte member =>
      UInt8.lt_iff_toNat_lt.mp (bytes byte member))
  dump_isSome value := by
    rcases FastRepo.Serializer.dumps_value value with ⟨strings, same⟩ | ⟨strings, error, failed⟩
    · rw [strings, same]
      rfl
    · rw [strings, failed]
      rfl
  parse_of_dump _ _ := FastRepo.Serializer.parse_dump
  clean_of_parse _ _ := FastRepo.Serializer.clean_of_parse
  object_start _ rest noQuote noClose _ := FastRepo.Serializer.parse_of_readValue_eq_none
    (JsonText.readValue_object_start noQuote noClose _ rest)
  null_start _ rest other := FastRepo.Serializer.parse_of_readValue_eq_none
    (JsonText.readValue_null_start other _ rest)

namespace FastRepo.Serializer

/-- The status is dumped by the serializer, whatever its error is. -/
theorem dumpStatus_serializerText (entries : Std.TreeMap Bytes (Json Int)) :
    StatusHandle.dumpStatus serializerText entries =
      (dump (StatusHandle.statusJson entries)).mapError fun _ => Exn.typeError := by
  have dumps : serializerText.dump (StatusHandle.statusJson entries) =
      (dump (StatusHandle.statusJson entries)).toOption := rfl
  rw [StatusHandle.dumpStatus, dumps]
  cases dump (StatusHandle.statusJson entries) <;> rfl

/-- The published status: **what is published is the compact text of the reports that were gathered,
and is UTF-8**. -/
theorem publishStatus_serializerText {polls : List (Except Exn (Bytes × Bytes))} {text : Bytes}
    (published : StatusHandle.publishStatus serializerText polls = .ok text) :
    ∃ status, Gather.gatherAll Exn.isRuntimeError
        (polls.map (StatusHandle.readReport serializerText)) = .ok status ∧
      text = JsonText.write (StatusHandle.statusJson status) ∧ Utf8.WellFormed text := by
  unfold StatusHandle.publishStatus at published
  split at published
  · cases published
  · rename_i status gathered
    rw [dumpStatus_serializerText] at published
    cases dumped : dump (StatusHandle.statusJson status) with
    | error error =>
      rw [dumped] at published
      cases published
    | ok written =>
      rw [dumped] at published
      cases published
      obtain ⟨strings, rfl⟩ := dump_eq_ok_iff.mp dumped
      exact ⟨status, gathered, rfl, wellFormed_write _ strings⟩

end FastRepo.Serializer
