import ProgressiveFrame.Image.Dump

/-!
# Written words are read back

* `Text.IsWord`: what can be told apart in a text by blanks.
* `Text.Splits`: what it is for a text to have some words. `Text.splits_iff`: `Text.words` finds them.
* `Text.words_flatMap_blank`: words that are written with a blank after each are the words of the text.
* `Text.readNatural?_decimal`, `Text.readNatural?_hexByte`: numbers and bytes survive being written in digits.
* `Binary32.ofHexWord?_hexWord`: so does every number in single precision, bit for bit.
-/

namespace ProgressiveFrame

namespace Text

/-! ## Words -/

/-- The characters are not empty and hold no white space. -/
structure IsWord (w : List Char) : Prop where
  ne_nil : w ≠ []
  not_isBlank : ∀ c ∈ w, isBlank c = false

theorem isWord_iff {w : List Char} : IsWord w ↔ (!w.isEmpty && w.all fun c => !isBlank c) = true := by
  simp only [Bool.and_eq_true, Bool.not_eq_true', List.isEmpty_eq_false_iff, List.all_eq_true]
  exact ⟨fun h => ⟨h.ne_nil, h.not_isBlank⟩, fun h => ⟨h.1, h.2⟩⟩

instance (w : List Char) : Decidable (IsWord w) := decidable_of_iff _ isWord_iff.symm

/-- Characters that are no white space become part of the first word. -/
theorem foldr_consChar {w : List Char} (h : ∀ c ∈ w, isBlank c = false) (cut : List Char × List (List Char)) :
    w.foldr consChar cut = (w ++ cut.1, cut.2) := by
  induction w with
  | nil => rfl
  | cons c w ih =>
    obtain ⟨hc, hw⟩ := List.forall_mem_cons.mp h
    rw [List.foldr_cons, ih hw, consChar, if_neg (by simp [hc])]
    rfl

theorem IsWord.words_append {w : List Char} (hw : IsWord w) {b : Char} (hb : isBlank b = true) (rest : List Char) :
    words (w ++ b :: rest) = w :: words rest := by
  have hcut : (b :: rest).foldr consChar ([], []) = ([], words rest) := by
    rw [List.foldr_cons, consChar, if_pos hb]
    rfl
  rw [words, List.foldr_append, hcut, foldr_consChar hw.not_isBlank]
  simp only [List.append_nil, consWord, List.isEmpty_iff, hw.ne_nil, if_false]

/-- A text of words with a blank after each has these words. -/
theorem words_flatMap_blank {ws : List (List Char)} (h : ∀ w ∈ ws, IsWord w) :
    words (ws.flatMap (· ++ [' '])) = ws := by
  induction ws with
  | nil => rfl
  | cons w ws ih =>
    obtain ⟨hw, hws⟩ := List.forall_mem_cons.mp h
    rw [List.flatMap_cons, List.append_assoc, List.singleton_append, hw.words_append rfl, ih hws]

theorem words_blank {b : Char} (hb : isBlank b = true) (cs : List Char) : words (b :: cs) = words cs := by
  rw [words, List.foldr_cons, consChar, if_pos hb]
  rfl

/-- The text consists of these words, with white space before, between and after them. -/
inductive Splits : List Char → List (List Char) → Prop where
  | nil : Splits [] []
  | blank {b : Char} {cs : List Char} {ws : List (List Char)} (hb : isBlank b = true) (rest : Splits cs ws) :
    Splits (b :: cs) ws
  | word {w cs : List Char} {ws : List (List Char)} (hw : IsWord w) (hend : ∀ c ∈ cs.head?, isBlank c = true)
    (rest : Splits cs ws) : Splits (w ++ cs) (w :: ws)

/-- A word ends with its text or before white space. -/
theorem IsWord.words_append_end {w cs : List Char} (hw : IsWord w) (hend : ∀ c ∈ cs.head?, isBlank c = true) :
    words (w ++ cs) = w :: words cs := by
  cases cs with
  | nil =>
    rw [words, List.foldr_append, List.foldr_nil, foldr_consChar hw.not_isBlank]
    simp only [List.append_nil, consWord, List.isEmpty_iff, hw.ne_nil, if_false, words_nil]
  | cons b cs =>
    have hb : isBlank b = true := hend b rfl
    rw [hw.words_append hb, words_blank hb]

/-- A text splits into its words. -/
theorem splits_words (cs : List Char) : Splits cs (words cs) := by
  induction hn : cs.length using Nat.strongRecOn generalizing cs with
  | ind n ih =>
    cases cs with
    | nil => exact .nil
    | cons c cs =>
      have hlt : cs.length < n := by rw [← hn, List.length_cons]; omega
      cases hc : isBlank c with
      | true =>
        rw [words_blank hc]
        exact .blank hc (ih cs.length hlt cs rfl)
      | false =>
        -- The longest run without white space is the first word.
        have hcut : c :: cs = (c :: cs.takeWhile fun d => !isBlank d) ++ cs.dropWhile fun d => !isBlank d := by
          rw [List.cons_append, List.takeWhile_append_dropWhile]
        have hw : IsWord (c :: cs.takeWhile fun d => !isBlank d) := by
          refine ⟨nofun, List.forall_mem_cons.mpr ⟨hc, fun d hd => ?_⟩⟩
          simpa using List.all_eq_true.mp List.all_takeWhile d hd
        have hend : ∀ d ∈ (cs.dropWhile fun d => !isBlank d).head?, isBlank d = true := by
          intro d hd
          have hhead := List.head?_dropWhile_not (fun d => !isBlank d) cs
          rw [Option.mem_def.mp hd] at hhead
          simpa using hhead
        have hrest : (cs.dropWhile fun d => !isBlank d).length ≤ cs.length := (List.dropWhile_sublist _).length_le
        rw [hcut, hw.words_append_end hend]
        exact .word hw hend (ih _ (by omega) _ rfl)

/-- The words of a text are the ones that it splits into. -/
theorem splits_iff {cs : List Char} {ws : List (List Char)} : Splits cs ws ↔ words cs = ws := by
  constructor
  · intro h
    induction h with
    | nil => rfl
    | blank hb _ ih => rw [words_blank hb, ih]
    | word hw hend _ ih => rw [hw.words_append_end hend, ih]
  · rintro rfl
    exact splits_words cs

/-! ## Digits -/

theorem isBlank_digitChar : ∀ d < 16, isBlank (Nat.digitChar d) = false := by decide

theorem digit?_digitChar : ∀ d < 16, ∀ radix ≤ 16, d < radix → digit? radix (Nat.digitChar d) = some d := by decide

theorem digitChar_ne_plus : ∀ d < 16, Nat.digitChar d ≠ '+' := by decide

theorem readDigits?_digitChar {radix d : Nat} (hradix : radix ≤ 16) (hd : d < radix) (acc : Nat) (cs : List Char) :
    readDigits? radix acc (Nat.digitChar d :: cs) = readDigits? radix (acc * radix + d) cs := by
  rw [readDigits?, digit?_digitChar d (by omega) radix hradix hd]

theorem readNatural?_of_ne_plus {radix limit : Nat} {c : Char} {cs : List Char} (hc : c ≠ '+') :
    readNatural? radix limit (c :: cs) = (readDigits? radix 0 (c :: cs)).filter (· < limit) := by
  simp [readNatural?, hc]

/-- A decimal digit is the character of a number below ten. -/
theorem exists_digitChar_eq {c : Char} (h : c.isDigit = true) : ∃ d < 10, Nat.digitChar d = c := by
  have hrange : 48 ≤ c.toNat ∧ c.toNat ≤ 57 := Char.isDigit_iff_toNat.mp h
  refine ⟨c.toNat - 48, by omega, Char.toNat_inj.mp ?_⟩
  rw [Nat.toNat_digitChar_of_lt_ten (by omega)]
  omega

/-- The decimal text of a number consists of digits. -/
theorem exists_digitChar_of_mem_decimal {n : Nat} {c : Char} (h : c ∈ decimal n) : ∃ d < 10, Nat.digitChar d = c :=
  exists_digitChar_eq (Nat.isDigit_of_mem_toDigits (by decide) (by decide) h)

theorem isWord_decimal (n : Nat) : IsWord (decimal n) where
  ne_nil := Nat.toDigits_ne_nil
  not_isBlank c hc := by
    obtain ⟨d, hd, rfl⟩ := exists_digitChar_of_mem_decimal hc
    exact isBlank_digitChar d (by omega)

/-- Decimal digits are read as the number that they are the digits of. -/
theorem readDigits?_eq_ofDigitChars {cs : List Char} (h : ∀ c ∈ cs, ∃ d < 10, Nat.digitChar d = c) (acc : Nat) :
    readDigits? 10 acc cs = some (Nat.ofDigitChars 10 cs acc) := by
  induction cs generalizing acc with
  | nil => rfl
  | cons c cs ih =>
    obtain ⟨⟨d, hd, rfl⟩, hcs⟩ := List.forall_mem_cons.mp h
    rw [readDigits?_digitChar (by decide) hd, ih hcs, Nat.ofDigitChars_cons_digitChar_of_lt_ten hd, Nat.mul_comm]

theorem readNatural?_decimal {n limit : Nat} (h : n < limit) : readNatural? 10 limit (decimal n) = some n := by
  have hread : readDigits? 10 0 (decimal n) = some n := by
    rw [readDigits?_eq_ofDigitChars fun _ => exists_digitChar_of_mem_decimal, decimal, Nat.ofDigitChars_ten_toDigits]
  cases hcs : decimal n with
  | nil => exact absurd hcs Nat.toDigits_ne_nil
  | cons c cs =>
    obtain ⟨d, hd, rfl⟩ := exists_digitChar_of_mem_decimal (hcs ▸ List.mem_cons_self)
    rw [readNatural?_of_ne_plus (digitChar_ne_plus d (by omega)), ← hcs, hread]
    simp [h]

/-- The two digits of a byte are read as the byte. -/
theorem readNatural?_hexByte (b : UInt8) : readNatural? 16 256 (hexByte b) = some b.toNat := by
  have hb : b.toNat < 256 := b.toNat_lt
  have hhigh : b.toNat / 16 < 16 := by omega
  have hlow : b.toNat % 16 < 16 := by omega
  rw [hexByte, readNatural?_of_ne_plus (digitChar_ne_plus _ hhigh), readDigits?_digitChar (by decide) hhigh,
    readDigits?_digitChar (by decide) hlow, readDigits?, Nat.zero_mul, Nat.zero_add, Nat.div_add_mod']
  simp [hb]

theorem not_isBlank_of_mem_hexByte {b : UInt8} {c : Char} (h : c ∈ hexByte b) : isBlank c = false := by
  have hb : b.toNat < 256 := b.toNat_lt
  simp only [hexByte, List.mem_cons, List.not_mem_nil, or_false] at h
  rcases h with rfl | rfl
  · exact isBlank_digitChar _ (by omega)
  · exact isBlank_digitChar _ (by omega)

end Text

namespace Binary32

/-! ## Bytes -/

/-- The bytes of a pattern make up the pattern. -/
theorem ofBytes_bytes (a : UInt32) :
    ofBytes a.toUInt8 (a >>> 8).toUInt8 (a >>> 16).toUInt8 (a >>> 24).toUInt8 = ⟨a⟩ := by
  refine congrArg Binary32.mk (UInt32.toBitVec_inj.mp (BitVec.eq_of_getLsbD_eq fun i hi => ?_))
  have h8 : (UInt32.toBitVec 8 % 32).toNat = 8 := rfl
  have h16 : (UInt32.toBitVec 16 % 32).toNat = 16 := rfl
  have h24 : (UInt32.toBitVec 24 % 32).toNat = 24 := rfl
  simp only [UInt32.toBitVec_or, UInt32.toBitVec_shiftLeft, UInt8.toBitVec_toUInt32, UInt32.toBitVec_toUInt8,
    UInt32.toBitVec_shiftRight, BitVec.getLsbD_or, BitVec.shiftLeft_eq', BitVec.getLsbD_shiftLeft,
    BitVec.getLsbD_setWidth, BitVec.ushiftRight_eq', BitVec.getLsbD_ushiftRight, h8, h16, h24]
  -- Each bit comes from one byte alone.
  grind

theorem isWord_hexWord (x : Binary32) : Text.IsWord x.hexWord where
  ne_nil := nofun
  not_isBlank c hc := by
    obtain ⟨b, -, hc⟩ := List.mem_flatMap.mp hc
    exact Text.not_isBlank_of_mem_hexByte hc

/-- A number is read back from its eight digits, whatever its bits. -/
theorem ofHexWord?_hexWord (x : Binary32) : ofHexWord? x.hexWord = some x := by
  have hbyte (b : UInt8) : (Text.readNatural? 16 256 [Nat.digitChar (b.toNat / 16), Nat.digitChar (b.toNat % 16)]).map
      UInt8.ofNat = some b := by
    rw [← Text.hexByte, Text.readNatural?_hexByte, Option.map_some, UInt8.ofNat_toNat]
  simp only [hexWord, toBytes, Text.hexByte, List.flatMap_cons, List.flatMap_nil, List.cons_append, List.nil_append,
    ofHexWord?, hbyte]
  exact congrArg some (ofBytes_bytes x.bits)

end Binary32

end ProgressiveFrame
