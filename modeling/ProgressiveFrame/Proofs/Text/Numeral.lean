import Mathlib.Data.List.Forall2
import Mathlib.Data.Nat.Digits.Defs
import ProgressiveFrame.Proofs.Text.Words

/-!
# What numbers are written like

A number is read from a word exactly if the word is one of its numerals: digits of the radix, of either case and with
any number of leading zeros, behind one plus sign or none.

* `Text.IsNumeral`: the numerals of a number. `Text.readNatural?_eq_some_iff`: the numerals are what is read.
* `Binary32.IsHexWord`: the words that write the bytes of a number in single precision.
  `Binary32.ofHexWord?_eq_some_iff`: they are what is read.
* `Text.byteSlice?`: a part of a word that is given by bytes, if no character is cut.
* `Binary32.ofHexWordChecked_eq`: a reader that takes the groups of digits by bytes never cuts one.
-/

namespace ProgressiveFrame

namespace Text

/-! ## Numerals -/

/-- The character is a digit of this value, up to `f` or `F`. -/
def IsDigit (d : Nat) (c : Char) : Prop := c = Nat.digitChar d ∨ c = (Nat.digitChar d).toUpper

instance (d : Nat) (c : Char) : Decidable (IsDigit d c) := inferInstanceAs (Decidable (_ ∨ _))

/-- The word writes a number below a limit. -/
structure IsNumeral (radix limit : Nat) (w : List Char) (n : Nat) : Prop where
  /-- The digits, the highest first. -/
  digits : ∃ digits : List Nat, digits ≠ [] ∧ (∀ d ∈ digits, d < radix) ∧ Nat.ofDigits radix digits.reverse = n ∧
    ∃ cs, (w = cs ∨ w = '+' :: cs) ∧ List.Forall₂ IsDigit digits cs
  lt_limit : n < limit

variable {radix limit n : Nat} {c : Char} {w cs : List Char}

theorem digit?_toUpper_digitChar :
    ∀ d < 16, ∀ radix ≤ 16, d < radix → digit? radix (Nat.digitChar d).toUpper = some d := by decide

theorem not_isDigit_plus : ∀ d < 16, ¬ IsDigit d '+' := by decide

theorem isDigit_ascii : ∀ d < 16, (Nat.digitChar d).toNat < 128 ∧ (Nat.digitChar d).toUpper.toNat < 128 := by decide

/-- A letter counts on from ten. -/
theorem isDigit_letter : ∀ k < 6, IsDigit (k + 10) (Char.ofNat (97 + k)) ∧ IsDigit (k + 10) (Char.ofNat (65 + k)) := by
  decide

theorem digit?_eq_some_iff (hradix : radix ≤ 16) {d : Nat} : digit? radix c = some d ↔ d < radix ∧ IsDigit d c := by
  constructor
  · intro h
    obtain ⟨hvalue, hlt⟩ := Option.filter_eq_some_iff.mp h
    have hd : d < radix := of_decide_eq_true hlt
    refine ⟨hd, ?_⟩
    have hletter (first : Char) (hfirst : first.toNat ≤ c.toNat) (hd : c.toNat - first.toNat + 10 = d) :
        ∃ k < 6, d = k + 10 ∧ c = Char.ofNat (first.toNat + k) := by
      refine ⟨c.toNat - first.toNat, by omega, hd.symm, ?_⟩
      rw [Nat.add_sub_cancel' hfirst, Char.ofNat_toNat]
    split at hvalue
    · rename_i hrange
      have hdigit : c.isDigit = true := Char.isDigit_iff_toNat.mpr hrange
      obtain ⟨e, he, rfl⟩ := exists_digitChar_eq hdigit
      rw [Option.some.injEq, Nat.toNat_digitChar_of_lt_ten he] at hvalue
      have heq : e = d := by
        have hzero : '0'.toNat = 48 := rfl
        omega
      exact .inl (congrArg Nat.digitChar heq)
    · split at hvalue
      · rename_i hrange
        obtain ⟨k, hk, rfl, rfl⟩ := hletter 'a' hrange.1 (Option.some.inj hvalue)
        exact (isDigit_letter k hk).1
      · split at hvalue
        · rename_i hrange
          obtain ⟨k, hk, rfl, rfl⟩ := hletter 'A' hrange.1 (Option.some.inj hvalue)
          exact (isDigit_letter k hk).2
        · cases hvalue
  · rintro ⟨hd, rfl | rfl⟩
    · exact digit?_digitChar d (by omega) radix hradix hd
    · exact digit?_toUpper_digitChar d (by omega) radix hradix hd

/-- Digits are read from the highest on. -/
theorem readDigits?_eq_some_iff (hradix : radix ≤ 16) (acc : Nat) : readDigits? radix acc cs = some n ↔
    ∃ digits : List Nat, (∀ d ∈ digits, d < radix) ∧ List.Forall₂ IsDigit digits cs ∧
      digits.foldl (fun n d => d + radix * n) acc = n := by
  induction cs generalizing acc with
  | nil => simp [readDigits?]
  | cons c cs ih =>
    rw [readDigits?]
    constructor
    · intro h
      cases hc : digit? radix c with
      | none =>
        rw [hc] at h
        cases h
      | some d =>
        simp only [hc] at h
        obtain ⟨hd, hdigit⟩ := (digit?_eq_some_iff hradix).mp hc
        obtain ⟨digits, hlt, hdigits, hvalue⟩ := (ih (acc * radix + d)).mp h
        refine ⟨d :: digits, List.forall_mem_cons.mpr ⟨hd, hlt⟩, .cons hdigit hdigits, ?_⟩
        rwa [List.foldl_cons, Nat.add_comm, Nat.mul_comm]
    · rintro ⟨digits, hlt, hdigits, hvalue⟩
      cases hdigits with
      | @cons d _ digits _ hdigit hdigits =>
        obtain ⟨hd, hlt⟩ := List.forall_mem_cons.mp hlt
        rw [List.foldl_cons, Nat.add_comm, Nat.mul_comm] at hvalue
        simp only [(digit?_eq_some_iff hradix).mpr ⟨hd, hdigit⟩]
        exact (ih (acc * radix + d)).mpr ⟨digits, hlt, hdigits, hvalue⟩

/-- A row of digits is not empty and does not begin with a sign. -/
theorem readDigits?_signless (hradix : radix ≤ 16) : (∃ digits : List Nat, digits ≠ [] ∧ (∀ d ∈ digits, d < radix) ∧
    Nat.ofDigits radix digits.reverse = n ∧ List.Forall₂ IsDigit digits cs) ↔
      cs ≠ [] ∧ readDigits? radix 0 cs = some n := by
  have hvalue (digits : List Nat) :
      Nat.ofDigits radix digits.reverse = digits.foldl (fun n d => d + radix * n) 0 := by
    rw [Nat.ofDigits_eq_foldr, List.foldr_reverse]
    rfl
  rw [readDigits?_eq_some_iff hradix]
  constructor
  · rintro ⟨digits, hne, hlt, hn, hdigits⟩
    refine ⟨?_, digits, hlt, hdigits, hvalue digits ▸ hn⟩
    rintro rfl
    cases hdigits
    exact hne rfl
  · rintro ⟨hne, digits, hlt, hdigits, hn⟩
    refine ⟨digits, ?_, hlt, hvalue digits ▸ hn, hdigits⟩
    rintro rfl
    cases hdigits
    exact hne rfl

/-- A number is read exactly from its numerals. -/
theorem readNatural?_eq_some_iff (hradix : radix ≤ 16) :
    readNatural? radix limit w = some n ↔ IsNumeral radix limit w n := by
  have hread (cs : List Char) : (if cs.isEmpty then none else (readDigits? radix 0 cs).filter (· < limit)) = some n ↔
      (cs ≠ [] ∧ readDigits? radix 0 cs = some n) ∧ n < limit := by
    cases cs with
    | nil => simp
    | cons c cs => simp [Option.filter_eq_some_iff]
  constructor
  · intro h
    obtain ⟨cs, hcs, hdigits, hlt⟩ : ∃ cs, (w = cs ∨ w = '+' :: cs) ∧
        (cs ≠ [] ∧ readDigits? radix 0 cs = some n) ∧ n < limit := by
      unfold readNatural? at h
      dsimp only at h
      split at h
      · exact ⟨_, .inr rfl, (hread _).mp h⟩
      · exact ⟨w, .inl rfl, (hread _).mp h⟩
    obtain ⟨digits, hne, hall, hvalue, hforall⟩ := (readDigits?_signless hradix).mpr hdigits
    exact ⟨⟨digits, hne, hall, hvalue, cs, hcs, hforall⟩, hlt⟩
  · rintro ⟨⟨digits, hne, hall, hvalue, cs, hcs, hforall⟩, hlt⟩
    have hdigits := (readDigits?_signless hradix).mp ⟨digits, hne, hall, hvalue, hforall⟩
    have hresult := (hread cs).mpr ⟨hdigits, hlt⟩
    rcases hcs with rfl | rfl
    · unfold readNatural?
      split
      -- A sign is no digit.
      · cases hforall with
        | @cons d _ digits _ hdigit _ =>
          exact absurd hdigit (not_isDigit_plus d ((hall d List.mem_cons_self).trans_le hradix))
      · exact hresult
    · exact hresult

/-- Numerals are made of one-byte characters. -/
theorem IsNumeral.ascii (h : IsNumeral radix limit w n) (hradix : radix ≤ 16) : ∀ c ∈ w, c.toNat < 128 := by
  obtain ⟨⟨digits, -, hall, -, cs, hcs, hforall⟩, -⟩ := h
  have hdigits : ∀ c ∈ cs, c.toNat < 128 := by
    intro c hc
    clear hcs
    induction hforall with
    | nil => cases hc
    | @cons d _ digits _ hdigit _ ih =>
      obtain ⟨hd, hall⟩ := List.forall_mem_cons.mp hall
      rcases List.mem_cons.mp hc with rfl | hc
      · have hascii := isDigit_ascii d (by omega)
        rcases hdigit with rfl | rfl
        · exact hascii.1
        · exact hascii.2
      · exact ih hall hc
  rcases hcs with rfl | rfl
  · exact hdigits
  · exact List.forall_mem_cons.mpr ⟨by decide, hdigits⟩

/-! ## Parts of a word -/

/-- What follows the first bytes of a text, if these end with a character. -/
def dropBytes? (n : Nat) : List Char → Option (List Char)
  | [] => if n = 0 then some [] else none
  | c :: cs => if n = 0 then some (c :: cs) else if c.utf8Size ≤ n then dropBytes? (n - c.utf8Size) cs else none

/-- The first bytes of a text, if these end with a character. -/
def takeBytes? (n : Nat) : List Char → Option (List Char)
  | [] => if n = 0 then some [] else none
  | c :: cs =>
    if n = 0 then some []
    else if c.utf8Size ≤ n then (takeBytes? (n - c.utf8Size) cs).map (c :: ·) else none

/-- The bytes from `first` to `last - 1` of a text, if there are all of them and no character is cut. -/
def byteSlice? (cs : List Char) (first last : Nat) : Option (List Char) :=
  if first ≤ last then (dropBytes? first cs).bind (takeBytes? (last - first)) else none

/-- The number of bytes of a text. -/
def byteSize (cs : List Char) : Nat := (cs.map Char.utf8Size).sum

/-- Whether all characters are of one byte. -/
def isAscii (cs : List Char) : Bool := cs.all fun c => c.toNat < 128

theorem utf8Size_of_lt (h : c.toNat < 128) : c.utf8Size = 1 :=
  Char.utf8Size_eq_one_iff.mpr (UInt32.le_iff_toNat_le.mpr (Nat.le_of_lt_succ h))

theorem byteSize_of_isAscii (h : isAscii cs = true) : byteSize cs = cs.length := by
  have hsizes : cs.map Char.utf8Size = cs.map fun _ => 1 :=
    List.map_congr_left fun c hc => utf8Size_of_lt (of_decide_eq_true (List.all_eq_true.mp h c hc))
  rw [byteSize, hsizes, List.map_const', List.sum_replicate_nat, Nat.mul_one]

end Text

namespace Binary32

open Text

/-! ## Numbers in single precision -/

/-- The word writes the bytes of a number in groups of two characters. -/
def IsHexWord (w : List Char) (v : Binary32) : Prop :=
  ∃ g₀ g₁ g₂ g₃ : List Char, ∃ b₀ b₁ b₂ b₃ : UInt8, w = g₀ ++ g₁ ++ g₂ ++ g₃ ∧
    (∀ g ∈ [g₀, g₁, g₂, g₃], g.length = 2) ∧ IsNumeral 16 256 g₀ b₀.toNat ∧ IsNumeral 16 256 g₁ b₁.toNat ∧
    IsNumeral 16 256 g₂ b₂.toNat ∧ IsNumeral 16 256 g₃ b₃.toNat ∧ ofBytes b₀ b₁ b₂ b₃ = v

variable {w g : List Char} {v : Binary32}

/-- The byte that a group of characters writes. -/
def byteOf? (g : List Char) : Option UInt8 := (readNatural? 16 256 g).map UInt8.ofNat

theorem byteOf?_eq_some_iff {b : UInt8} : byteOf? g = some b ↔ IsNumeral 16 256 g b.toNat := by
  rw [← readNatural?_eq_some_iff (by decide), byteOf?, Option.map_eq_some_iff]
  constructor
  · rintro ⟨n, hn, rfl⟩
    have hlt := ((readNatural?_eq_some_iff (by decide)).mp hn).lt_limit
    rwa [UInt8.toNat_ofNat_of_lt' hlt]
  · intro h
    exact ⟨b.toNat, h, UInt8.ofNat_toNat⟩

theorem ofHexWord?_eight (c0 c1 c2 c3 c4 c5 c6 c7 : Char) : ofHexWord? [c0, c1, c2, c3, c4, c5, c6, c7] =
    (byteOf? [c0, c1]).bind fun b₀ => (byteOf? [c2, c3]).bind fun b₁ => (byteOf? [c4, c5]).bind fun b₂ =>
      (byteOf? [c6, c7]).bind fun b₃ => some (ofBytes b₀ b₁ b₂ b₃) := rfl

/-- A number is read exactly from the words that write its bytes. -/
theorem ofHexWord?_eq_some_iff : ofHexWord? w = some v ↔ IsHexWord w v := by
  constructor
  · intro h
    unfold ofHexWord? at h
    split at h
    · rename_i c0 c1 c2 c3 c4 c5 c6 c7
      change ofHexWord? [c0, c1, c2, c3, c4, c5, c6, c7] = some v at h
      rw [ofHexWord?_eight] at h
      obtain ⟨b₀, h₀, h⟩ := Option.bind_eq_some_iff.mp h
      obtain ⟨b₁, h₁, h⟩ := Option.bind_eq_some_iff.mp h
      obtain ⟨b₂, h₂, h⟩ := Option.bind_eq_some_iff.mp h
      obtain ⟨b₃, h₃, h⟩ := Option.bind_eq_some_iff.mp h
      exact ⟨[c0, c1], [c2, c3], [c4, c5], [c6, c7], b₀, b₁, b₂, b₃, rfl, by simp, byteOf?_eq_some_iff.mp h₀,
        byteOf?_eq_some_iff.mp h₁, byteOf?_eq_some_iff.mp h₂, byteOf?_eq_some_iff.mp h₃, Option.some.inj h⟩
    · cases h
  · rintro ⟨g₀, g₁, g₂, g₃, b₀, b₁, b₂, b₃, rfl, hlength, h₀, h₁, h₂, h₃, rfl⟩
    simp only [List.mem_cons, List.not_mem_nil, or_false, forall_eq_or_imp, forall_eq] at hlength
    obtain ⟨hg₀, hg₁, hg₂, hg₃⟩ := hlength
    obtain ⟨c0, c1, rfl⟩ := List.length_eq_two.mp hg₀
    obtain ⟨c2, c3, rfl⟩ := List.length_eq_two.mp hg₁
    obtain ⟨c4, c5, rfl⟩ := List.length_eq_two.mp hg₂
    obtain ⟨c6, c7, rfl⟩ := List.length_eq_two.mp hg₃
    simp only [List.cons_append, List.nil_append]
    rw [ofHexWord?_eight, byteOf?_eq_some_iff.mpr h₀, byteOf?_eq_some_iff.mpr h₁, byteOf?_eq_some_iff.mpr h₂,
      byteOf?_eq_some_iff.mpr h₃]
    rfl

/-- The words that write a number have eight characters of one byte. -/
theorem IsHexWord.ascii (h : IsHexWord w v) : w.length = 8 ∧ isAscii w = true := by
  obtain ⟨g₀, g₁, g₂, g₃, b₀, b₁, b₂, b₃, rfl, hlength, h₀, h₁, h₂, h₃, -⟩ := h
  have hgroups : ∀ g ∈ [g₀, g₁, g₂, g₃], g.length = 2 := hlength
  simp only [List.mem_cons, List.not_mem_nil, or_false, forall_eq_or_imp, forall_eq] at hgroups
  refine ⟨by simp only [List.length_append, hgroups], List.all_eq_true.mpr fun c hc => decide_eq_true ?_⟩
  simp only [List.mem_append] at hc
  rcases hc with ((hc | hc) | hc) | hc
  · exact h₀.ascii (by decide) c hc
  · exact h₁.ascii (by decide) c hc
  · exact h₂.ascii (by decide) c hc
  · exact h₃.ascii (by decide) c hc

/-- The number that a word writes, read by a program that takes the groups by bytes. It comes to a halt where a group
does not start and end with characters. -/
def ofHexWordChecked (w : List Char) : Option (Option Binary32) :=
  if byteSize w ≠ 8 ∨ isAscii w = false then some none
  else do
    let g₀ ← byteSlice? w 0 2
    let g₁ ← byteSlice? w 2 4
    let g₂ ← byteSlice? w 4 6
    let g₃ ← byteSlice? w 6 8
    return do return ofBytes (← byteOf? g₀) (← byteOf? g₁) (← byteOf? g₂) (← byteOf? g₃)

/-- No group of digits is cut. -/
theorem ofHexWordChecked_eq (w : List Char) : ofHexWordChecked w = some (ofHexWord? w) := by
  rw [ofHexWordChecked]
  by_cases hascii : byteSize w = 8 ∧ isAscii w = true
  · obtain ⟨hsize, hall⟩ := hascii
    have hlength : w.length = 8 := byteSize_of_isAscii hall ▸ hsize
    have hone : ∀ c ∈ w, c.utf8Size = 1 := fun c hc =>
      utf8Size_of_lt (of_decide_eq_true (List.all_eq_true.mp hall c hc))
    rw [if_neg (by simp [hsize, hall])]
    match w, hlength with
    | [c0, c1, c2, c3, c4, c5, c6, c7], _ =>
      simp only [List.mem_cons, List.not_mem_nil, or_false, forall_eq_or_imp, forall_eq] at hone
      simp [byteSlice?, dropBytes?, takeBytes?, hone, ofHexWord?_eight, bind, pure]
  · have hnone : ofHexWord? w = none := by
      rw [Option.eq_none_iff_forall_ne_some]
      intro v hv
      obtain ⟨hlength, hall⟩ := (ofHexWord?_eq_some_iff.mp hv).ascii
      exact hascii ⟨(byteSize_of_isAscii hall).trans hlength, hall⟩
    rw [hnone, if_pos]
    rwa [not_and_or, Bool.not_eq_true] at hascii

end Binary32

end ProgressiveFrame
