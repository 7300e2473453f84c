import ProgressiveFrame.Limits
import ProgressiveFrame.Proofs.Image.Dump
import ProgressiveFrame.Proofs.Text.Numeral

/-!
# What a dump can say

A text is a dump if its words are: those before the pixels first, and then three for each pixel, the top row first. What
comes after them does not matter. A text that is no dump has a first word that is wrong or missing.

* `RgbImage.HasHead`, `RgbImage.HasValue`: what the words before the pixels and each word of a pixel have to be.
* `RgbImage.Describes`: an image of the size that the words give, each pixel of the value of its words.
* `RgbImage.FirstFault`: the first requirement that the words do not meet, where all those before it are met.
* `RgbImage.ofWords_eq_ok_iff`, `ofWords_eq_error_iff`: reading finds just these, and there always is one of them.
* `RgbImage.readDump?`: a reader that gives up where it has no room for an image of the size that it has read.
* `RgbImage.readDump?_grammar`: what it accepts, what it says otherwise, and when it gives up.
-/

namespace ProgressiveFrame

/-- The fault of a word that is not the value of a component. -/
def DumpFormat.wordFault : DumpFormat → List Char → DumpFault
  | .ppm => .badCode
  | .fbd => .badHexFloat

namespace RgbImage

variable {kind : ImageKind} {format : DumpFormat} {words : List (List Char)} {i : RgbImage}
  {width height x y j k n : Nat} {v : Binary32} {word : List Char} {fault : DumpFault}

/-! ## The grammar -/

/-- Word `k` writes the length of a side. -/
def HasSide (words : List (List Char)) (k n : Nat) : Prop := ∃ w ∈ words[k]?, Text.IsNumeral 10 0x100000000 w n

/-- The words before those of the pixels are those of an image of a size. -/
structure HasHead (format : DumpFormat) (words : List (List Char)) (width height : Nat) : Prop where
  magic : words[0]? = some format.magic
  width : HasSide words 1 width
  height : HasSide words 2 height
  /-- A pixel map has codes up to 255. -/
  resolution : format = .ppm → words[3]? = some ['2', '5', '5']

/-- The number of words before those of the pixels. -/
def headLength : DumpFormat → Nat
  | .ppm => 4
  | .fbd => 3

/-- The word writes the value of a component. -/
def Denotes (kind : ImageKind) (format : DumpFormat) (word : List Char) (v : Binary32) : Prop :=
  match format with
  | .ppm => ∃ code : UInt8, Text.IsNumeral 10 256 word code.toNat ∧
    v = match kind with
      | .beauty => gammaDecode code
      | .numSample => .ofUInt8 code
  | .fbd => Binary32.IsHexWord word v

/-- Word `k` of the pixels writes the value of a component. -/
def HasValue (kind : ImageKind) (format : DumpFormat) (words : List (List Char)) (k : Nat) (v : Binary32) : Prop :=
  ∃ word ∈ words[headLength format + k]?, Denotes kind format word v

/-- The place among the words of the pixels of component `j` of a pixel. -/
def wordPlace (width height x y j : Nat) : Nat := 3 * ((height - 1 - y) * width + x) + j

/-- The words are a dump of the image. -/
structure Describes (kind : ImageKind) (format : DumpFormat) (words : List (List Char)) (i : RgbImage) : Prop
    extends HasHead format words i.width i.height where
  size : i.pixels.size = i.width * i.height
  /-- The three words of a pixel write its components, or the first one writes its ray count. -/
  pixel : ∀ x < i.width, ∀ y < i.height, ∃ c : Rgb Binary32,
    HasValue kind format words (wordPlace i.width i.height x y 0) c.r ∧
    HasValue kind format words (wordPlace i.width i.height x y 1) c.g ∧
    HasValue kind format words (wordPlace i.width i.height x y 2) c.b ∧
    i.pixel? x y = some (match kind with
      | .beauty => c
      | .numSample => .uniform c.r)

/-- The first thing that is wrong with the words before those of the pixels. -/
inductive HeadFault (format : DumpFormat) (words : List (List Char)) : DumpFault → Prop where
  | header (wrong : words[0]? ≠ some format.magic) :
    HeadFault format words (.unsupportedHeader (words.getD 0 []) format.magic)
  | width (magic : words[0]? = some format.magic) (wrong : ∀ n, ¬ HasSide words 1 n) :
    HeadFault format words (.badDimension .width)
  | height {width : Nat} (magic : words[0]? = some format.magic) (hasWidth : HasSide words 1 width)
    (wrong : ∀ n, ¬ HasSide words 2 n) : HeadFault format words (.badDimension .height)
  | resolution {width height : Nat} (magic : words[0]? = some format.magic) (hasWidth : HasSide words 1 width)
    (hasHeight : HasSide words 2 height) (isMap : format = .ppm) (wrong : words[3]? ≠ some ['2', '5', '5']) :
    HeadFault format words (.unsupportedResolution (words.getD 3 []))

/-- The first thing that is wrong with the words. -/
inductive FirstFault (kind : ImageKind) (format : DumpFormat) (words : List (List Char)) : DumpFault → Prop where
  | head {fault : DumpFault} (wrong : HeadFault format words fault) : FirstFault kind format words fault
  | truncated {width height x y j : Nat} (head : HasHead format words width height) (hx : x < width) (hy : y < height)
    (hj : j < 3) (before : ∀ k < wordPlace width height x y j, ∃ v, HasValue kind format words k v)
    (missing : words[headLength format + wordPlace width height x y j]? = none) :
    FirstFault kind format words (.truncated x y)
  | word {width height x y j : Nat} {word : List Char} (head : HasHead format words width height) (hx : x < width)
    (hy : y < height) (hj : j < 3) (before : ∀ k < wordPlace width height x y j, ∃ v, HasValue kind format words k v)
    (found : words[headLength format + wordPlace width height x y j]? = some word)
    (wrong : ∀ v, ¬ Denotes kind format word v) : FirstFault kind format words (format.wordFault word)

/-! ## The head -/

/-- The size that the first words write, and the words of the pixels. -/
def readHead (format : DumpFormat) (words : List (List Char)) :
    Except DumpFault ((Nat × Nat) × List (List Char)) :=
  if words.headD [] ≠ format.magic then .error (.unsupportedHeader (words.headD []) format.magic)
  else do
    let (width, words) ← readDimension .width words.tail
    let (height, words) ← readDimension .height words
    let words ← readResolution format words
    return ((width, height), words)

theorem ofWords_eq (kind : ImageKind) (format : DumpFormat) (words : List (List Char)) :
    ofWords kind format words = (do
      let ((width, height), words) ← readHead format words
      let values ← readValues kind format width height (3 * (width * height)) #[] words
      return ofScan kind width height values) := by
  simp only [ofWords, readHead]
  split
  · rfl
  · simp only [bind_assoc, pure_bind]

theorem toOption_bind {ε α β : Type} (result : Except ε α) (f : α → Except ε β) :
    (result >>= f).toOption = result.toOption.bind fun a => (f a).toOption := by
  cases result with
  | error e => rfl
  | ok a => rfl

theorem wordsSize?_eq (format : DumpFormat) (words : List (List Char)) :
    wordsSize? format words = (readHead format words).toOption.map (·.1) := by
  simp only [wordsSize?, readHead]
  split
  · rfl
  · simp only [toOption_bind, Option.bind_eq_bind, Option.map_bind, Function.comp_def]
    rfl

theorem exists_cons_of_getElem? {ws : List (List Char)} (h : ws[0]? = some word) : ∃ rest, ws = word :: rest :=
  List.head?_eq_some_iff.mp (List.head?_eq_getElem? ▸ h)

theorem readDimension_numeral (h : Text.IsNumeral 10 0x100000000 word n) (axis : Axis) (rest : List (List Char)) :
    readDimension axis (word :: rest) = .ok (n, rest) := by
  rw [readDimension, (Text.readNatural?_eq_some_iff (by decide)).mpr h]

theorem readDimension_fault {words : List (List Char)} (h : ∀ n, ¬ HasSide words 0 n) (axis : Axis) :
    readDimension axis words = .error (.badDimension axis) := by
  cases words with
  | nil => rfl
  | cons word rest =>
    rw [readDimension]
    cases hn : Text.readNatural? 10 0x100000000 word with
    | none => rfl
    | some n => exact absurd ⟨word, rfl, (Text.readNatural?_eq_some_iff (by decide)).mp hn⟩ (h n)

theorem readHead_magic (format : DumpFormat) (rest : List (List Char)) : readHead format (format.magic :: rest) = (do
    let (width, words) ← readDimension .width rest
    let (height, words) ← readDimension .height words
    let words ← readResolution format words
    return ((width, height), words)) :=
  if_neg (not_not.mpr rfl)

/-- The head of a dump is read. -/
theorem readHead_of_hasHead (h : HasHead format words width height) :
    readHead format words = .ok ((width, height), words.drop (headLength format)) := by
  obtain ⟨hmagic, ⟨ww, hww, hwidth⟩, ⟨hw, hhw, hheight⟩, hresolution⟩ := h
  obtain ⟨rest, rfl⟩ := exists_cons_of_getElem? hmagic
  obtain ⟨rest, rfl⟩ := exists_cons_of_getElem? hww
  obtain ⟨rest, rfl⟩ := exists_cons_of_getElem? hhw
  rw [readHead_magic, readDimension_numeral hwidth]
  simp only [bind, Except.bind, readDimension_numeral hheight]
  cases format with
  | fbd => rfl
  | ppm =>
    obtain ⟨rest, rfl⟩ := exists_cons_of_getElem? (hresolution rfl)
    rfl

/-- The first thing that is wrong with a head is found. -/
theorem readHead_of_headFault (h : HeadFault format words fault) : readHead format words = .error fault := by
  cases h with
  | header wrong =>
    have hfirst : words.headD [] = words.getD 0 [] := by cases words <;> rfl
    have hne : words.headD [] ≠ format.magic := by
      cases words with
      | nil => cases format <;> decide
      | cons word rest => exact fun heq => wrong (congrArg some heq)
    rw [readHead, if_pos hne, hfirst]
  | width magic wrong =>
    obtain ⟨rest, rfl⟩ := exists_cons_of_getElem? magic
    rw [readHead_magic, readDimension_fault wrong]
    rfl
  | height magic hasWidth wrong =>
    obtain ⟨ww, hww, hwidth⟩ := hasWidth
    obtain ⟨rest, rfl⟩ := exists_cons_of_getElem? magic
    obtain ⟨rest, rfl⟩ := exists_cons_of_getElem? hww
    rw [readHead_magic, readDimension_numeral hwidth]
    simp only [bind, Except.bind, readDimension_fault wrong]
  | resolution magic hasWidth hasHeight isMap wrong =>
    subst isMap
    obtain ⟨ww, hww, hwidth⟩ := hasWidth
    obtain ⟨hw, hhw, hheight⟩ := hasHeight
    obtain ⟨rest, rfl⟩ := exists_cons_of_getElem? magic
    obtain ⟨rest, rfl⟩ := exists_cons_of_getElem? hww
    obtain ⟨rest, rfl⟩ := exists_cons_of_getElem? hhw
    rw [readHead_magic, readDimension_numeral hwidth]
    simp only [bind, Except.bind, readDimension_numeral hheight]
    cases rest with
    | nil => rfl
    | cons word rest =>
      have hne : word ≠ ['2', '5', '5'] := fun heq => wrong (congrArg some heq)
      simp [readResolution, hne]

/-- A head is that of a dump, or something is wrong with it. -/
theorem hasHead_or_headFault (format : DumpFormat) (words : List (List Char)) :
    (∃ width height, HasHead format words width height) ∨ ∃ fault, HeadFault format words fault := by
  by_cases hmagic : words[0]? = some format.magic
  · by_cases hwidth : ∃ width, HasSide words 1 width
    · obtain ⟨width, hwidth⟩ := hwidth
      by_cases hheight : ∃ height, HasSide words 2 height
      · obtain ⟨height, hheight⟩ := hheight
        by_cases hresolution : format = .ppm → words[3]? = some ['2', '5', '5']
        · exact .inl ⟨width, height, hmagic, hwidth, hheight, hresolution⟩
        · obtain ⟨hppm, hwrong⟩ := Classical.not_imp.mp hresolution
          exact .inr ⟨_, .resolution hmagic hwidth hheight hppm hwrong⟩
      · exact .inr ⟨_, .height hmagic hwidth (not_exists.mp hheight)⟩
    · exact .inr ⟨_, .width hmagic (not_exists.mp hwidth)⟩
  · exact .inr ⟨_, .header hmagic⟩

/-! ## The values -/

theorem readValue_eq_ok_iff : readValue kind format word = .ok v ↔ Denotes kind format word v := by
  cases format with
  | fbd =>
    rw [Denotes, ← Binary32.ofHexWord?_eq_some_iff, readValue]
    cases Binary32.ofHexWord? word with
    | none => simp
    | some u => simp
  | ppm =>
    rw [Denotes, readValue]
    cases hcode : Text.readNatural? 10 256 word with
    | none =>
      constructor
      · intro h
        cases h
      · rintro ⟨code, hnumeral, -⟩
        rw [(Text.readNatural?_eq_some_iff (by decide)).mpr hnumeral] at hcode
        cases hcode
    | some n =>
      have hnumeral := (Text.readNatural?_eq_some_iff (by decide)).mp hcode
      have hn : (UInt8.ofNat n).toNat = n := UInt8.toNat_ofNat_of_lt' hnumeral.lt_limit
      constructor
      · intro h
        refine ⟨.ofNat n, hn.symm ▸ hnumeral, ?_⟩
        cases kind <;> exact (Except.ok.inj h).symm
      · rintro ⟨code, hcode', rfl⟩
        rw [(Text.readNatural?_eq_some_iff (by decide)).mpr hcode', Option.some.injEq] at hcode
        subst hcode
        cases kind <;> simp only [UInt8.ofNat_toNat]

/-- A word that is not the value of a component is a fault. -/
theorem readValue_fault (h : ∀ v, ¬ Denotes kind format word v) :
    readValue kind format word = .error (format.wordFault word) := by
  cases hread : readValue kind format word with
  | ok v => exact absurd (readValue_eq_ok_iff.mp hread) (h v)
  | error e =>
    cases format with
    | fbd =>
      rw [readValue] at hread
      split at hread
      · exact hread.symm
      · cases hread
    | ppm =>
      rw [readValue] at hread
      split at hread
      · exact hread.symm
      · cases kind <;> cases hread

theorem HasValue.unique {v' : Binary32} (h : HasValue kind format words k v) (h' : HasValue kind format words k v') :
    v = v' := by
  obtain ⟨word, hword, hv⟩ := h
  obtain ⟨word', hword', hv'⟩ := h'
  obtain rfl : word = word' := Option.some.inj (hword.symm.trans hword')
  exact Except.ok.inj ((readValue_eq_ok_iff.mpr hv).symm.trans (readValue_eq_ok_iff.mpr hv'))

/-- Words that have values can be split off from the rest. -/
theorem exists_values (n : Nat) (h : ∀ k < n, ∃ v, HasValue kind format words k v) :
    ∃ (ws : List (List Char)) (vs : List Binary32),
      words.drop (headLength format) = ws ++ words.drop (headLength format + n) ∧ vs.length = n ∧
      ws.map (readValue kind format) = vs.map .ok ∧ ∀ k < n, HasValue kind format words k (vs.getD k .zero) := by
  induction n with
  | zero => exact ⟨[], [], rfl, rfl, rfl, nofun⟩
  | succ n ih =>
    obtain ⟨ws, vs, hsplit, hlength, hvalues, hat⟩ := ih fun k hk => h k (Nat.lt_succ_of_lt hk)
    obtain ⟨v, word, hword, hv⟩ := h n (Nat.lt_succ_self n)
    refine ⟨ws ++ [word], vs ++ [v], ?_, by simp [hlength], ?_, fun k hk => ?_⟩
    · obtain ⟨hlt, hget⟩ := List.getElem?_eq_some_iff.mp hword
      rw [hsplit, List.append_assoc, List.singleton_append, ← Nat.add_assoc, ← hget, List.drop_eq_getElem_cons hlt]
    · rw [List.map_append, List.map_append, hvalues, List.map_singleton, List.map_singleton, readValue_eq_ok_iff.mpr hv]
    · rcases Nat.lt_succ_iff_lt_or_eq.mp hk with hk | rfl
      · rw [List.getD_eq_getElem?_getD, List.getElem?_append_left (hlength ▸ hk), ← List.getD_eq_getElem?_getD]
        exact hat k hk
      · rw [List.getD_eq_getElem?_getD, List.getElem?_append_right (Nat.le_of_eq hlength), hlength, Nat.sub_self]
        exact ⟨word, hword, hv⟩

/-! ## The pixels -/

theorem wordPlace_lt (hx : x < width) (hy : y < height) (hj : j < 3) :
    wordPlace width height x y j < 3 * (width * height) := by
  have hrow : height - 1 - y + 1 ≤ height := by omega
  have hle : (height - 1 - y + 1) * width ≤ width * height :=
    Nat.mul_comm width height ▸ Nat.mul_le_mul_right width hrow
  rw [Nat.succ_mul] at hle
  rw [wordPlace]
  omega

/-- The pixel of a place. -/
theorem wordPlace_pixel (hx : x < width) (hy : y < height) (hj : j < 3) :
    wordPlace width height x y j / 3 % width = x ∧ height - 1 - wordPlace width height x y j / 3 / width = y := by
  have hpixel : wordPlace width height x y j / 3 = (height - 1 - y) * width + x := by rw [wordPlace]; omega
  have hwidth : 0 < width := Nat.zero_lt_of_lt hx
  rw [hpixel, Nat.mul_comm, Nat.mul_add_mod, Nat.mod_eq_of_lt hx, Nat.mul_add_div hwidth, Nat.div_eq_of_lt hx]
  omega

/-- Each place belongs to a component of a pixel. -/
theorem exists_wordPlace (hk : k < 3 * (width * height)) :
    ∃ x < width, ∃ y < height, ∃ j < 3, wordPlace width height x y j = k := by
  have hpixel : k / 3 < width * height := by omega
  have hwidth : 0 < width := Nat.pos_of_lt_mul_right hpixel
  have hrow : k / 3 / width < height := Nat.div_lt_of_lt_mul hpixel
  have hmirror : height - 1 - k / 3 / width < height ∧
      height - 1 - (height - 1 - k / 3 / width) = k / 3 / width := by
    generalize k / 3 / width = row at hrow
    omega
  have hcomponent : k % 3 < 3 := Nat.mod_lt _ (by decide)
  refine ⟨k / 3 % width, Nat.mod_lt _ hwidth, height - 1 - k / 3 / width, hmirror.1, k % 3, hcomponent, ?_⟩
  rw [wordPlace, hmirror.2, Nat.div_add_mod']
  omega

/-- Images of one size are the same if their pixels are. -/
theorem eq_of_pixel? {i j : RgbImage} (hi : i.pixels.size = i.width * i.height)
    (hj : j.pixels.size = j.width * j.height) (hwidth : i.width = j.width) (hheight : i.height = j.height)
    (h : ∀ x < i.width, ∀ y < i.height, i.pixel? x y = j.pixel? x y) : i = j := by
  obtain ⟨width, height, pixels⟩ := i
  obtain ⟨width', height', pixels'⟩ := j
  obtain rfl : width = width' := hwidth
  obtain rfl : height = height' := hheight
  refine congrArg (RgbImage.mk width height) (Array.ext_getElem? fun k => ?_)
  by_cases hk : k < width * height
  · have hpos : 0 < width := Nat.pos_of_lt_mul_right hk
    have hpixel := h (k % width) (Nat.mod_lt _ hpos) (k / width) (Nat.div_lt_of_lt_mul hk)
    rwa [pixel?, pixel?, offset, offset, Nat.div_add_mod'] at hpixel
  · rw [Array.getElem?_eq_none (hi ▸ Nat.le_of_not_lt hk), Array.getElem?_eq_none (hj ▸ Nat.le_of_not_lt hk)]

theorem pixel?_ofScan (kind : ImageKind) (vs : List Binary32) (hx : x < width) (hy : y < height) :
    (ofScan kind width height vs.toArray).pixel? x y =
      let value (j : Nat) := vs.getD (wordPlace width height x y j) .zero
      some (match kind with
        | .beauty => ⟨value 0, value 1, value 2⟩
        | .numSample => .uniform (value 0)) := by
  refine (pixel?_ofFn width height _ hx hy).trans ?_
  simp only [Array.getD_eq_getD_getElem?, List.getElem?_toArray, ← List.getD_eq_getElem?_getD]
  cases kind <;> rfl

section Values

variable {vs : List Binary32} (head : HasHead format words width height)
  (hvalues : ∀ k < 3 * (width * height), HasValue kind format words k (vs.getD k .zero))
include head hvalues

/-- The image of the values that words write is what the words describe. -/
theorem describes_ofScan : Describes kind format words (ofScan kind width height vs.toArray) := by
  refine { head with size := size_pixels_ofFn .., pixel := fun x hx y hy => ?_ }
  have hvalue {j : Nat} (hj : j < 3) := hvalues _ (wordPlace_lt hx hy hj)
  exact ⟨⟨_, _, _⟩, hvalue (by decide), hvalue (by decide), hvalue (by decide), (pixel?_ofScan kind vs hx hy).trans (by
    cases kind <;> rfl)⟩

/-- The words describe no other image of the size. -/
theorem ofScan_eq_of_describes (h : Describes kind format words i) (hwidth : i.width = width)
    (hheight : i.height = height) : ofScan kind width height vs.toArray = i := by
  subst hwidth hheight
  have hsize : (ofScan kind i.width i.height vs.toArray).pixels.size = i.width * i.height := size_pixels_ofFn ..
  refine (eq_of_pixel? h.size hsize rfl rfl fun x hx y hy => ?_).symm
  obtain ⟨c, hr, hg, hb, hpixel⟩ := h.pixel x hx y hy
  have hvalue {j : Nat} (hj : j < 3) := hvalues _ (wordPlace_lt hx hy hj)
  have hred := (hvalue (j := 0) (by decide)).unique hr
  have hgreen := (hvalue (j := 1) (by decide)).unique hg
  have hblue := (hvalue (j := 2) (by decide)).unique hb
  rw [hpixel, pixel?_ofScan kind vs hx hy]
  simp only [hred, hgreen, hblue]

end Values

/-! ## What is read -/

/-- Words of pixels that have values are read, and it goes on with the next one. -/
theorem ofWords_of_hasValue (head : HasHead format words width height) {m : Nat} (hn : n + m = 3 * (width * height))
    (h : ∀ k < n, ∃ v, HasValue kind format words k v) :
    ∃ vs : List Binary32, vs.length = n ∧ (∀ k < n, HasValue kind format words k (vs.getD k .zero)) ∧
      ofWords kind format words = (do
        let values ← readValues kind format width height m vs.toArray (words.drop (headLength format + n))
        return ofScan kind width height values) := by
  obtain ⟨ws, vs, hsplit, hlength, hvalues, hat⟩ := exists_values n h
  refine ⟨vs, hlength, hat, ?_⟩
  rw [ofWords_eq, readHead_of_hasHead head, hsplit]
  simp only [bind, Except.bind, ← hn, ← hlength, readValues_append hvalues, Array.empty_append]

theorem Describes.hasValue (h : Describes kind format words i) (hk : k < 3 * (i.width * i.height)) :
    ∃ v, HasValue kind format words k v := by
  obtain ⟨x, hx, y, hy, j, hj, rfl⟩ := exists_wordPlace hk
  obtain ⟨c, hr, hg, hb, -⟩ := h.pixel x hx y hy
  match j, hj with
  | 0, _ => exact ⟨c.r, hr⟩
  | 1, _ => exact ⟨c.g, hg⟩
  | 2, _ => exact ⟨c.b, hb⟩

/-- An image that words describe is read. -/
theorem Describes.ofWords_eq (h : Describes kind format words i) : ofWords kind format words = .ok i := by
  obtain ⟨vs, -, hat, hread⟩ := ofWords_of_hasValue h.toHasHead (Nat.add_zero _) fun _ => h.hasValue
  rw [hread, readValues]
  exact congrArg Except.ok (ofScan_eq_of_describes h.toHasHead hat h rfl rfl)

/-- The first fault of words is found. -/
theorem FirstFault.ofWords_eq (h : FirstFault kind format words fault) : ofWords kind format words = .error fault := by
  -- Up to the word at fault all words have values, so it is the next one to be read.
  have hnext {width height x y j : Nat} (head : HasHead format words width height) (hx : x < width) (hy : y < height)
      (hj : j < 3) (before : ∀ k < wordPlace width height x y j, ∃ v, HasValue kind format words k v) :
      ∃ (m : Nat) (vs : List Binary32), vs.length = wordPlace width height x y j ∧
        ofWords kind format words = (do
          let values ← readValues kind format width height (m + 1) vs.toArray
            (words.drop (headLength format + wordPlace width height x y j))
          return ofScan kind width height values) := by
    obtain ⟨m, hm⟩ := Nat.exists_eq_add_of_lt (wordPlace_lt hx hy hj)
    obtain ⟨vs, hlength, -, hread⟩ := ofWords_of_hasValue head (m := m + 1) hm.symm before
    exact ⟨m, vs, hlength, hread⟩
  cases h with
  | head wrong =>
    rw [RgbImage.ofWords_eq, readHead_of_headFault wrong]
    rfl
  | truncated head hx hy hj before missing =>
    obtain ⟨m, vs, hlength, hread⟩ := hnext head hx hy hj before
    obtain ⟨hcolumn, hrow⟩ := wordPlace_pixel hx hy hj
    rw [hread, List.drop_eq_nil_of_le (List.getElem?_eq_none_iff.mp missing), readValues, List.size_toArray, hlength,
      hcolumn, hrow]
    rfl
  | word head hx hy hj before found wrong =>
    obtain ⟨m, vs, hlength, hread⟩ := hnext head hx hy hj before
    obtain ⟨hlt, hget⟩ := List.getElem?_eq_some_iff.mp found
    rw [hread, List.drop_eq_getElem_cons hlt, hget, readValues, readValue_fault wrong]
    rfl

/-- Words describe an image, or there is a first fault. -/
theorem describes_or_firstFault (kind : ImageKind) (format : DumpFormat) (words : List (List Char)) :
    (∃ i, Describes kind format words i) ∨ ∃ fault, FirstFault kind format words fault := by
  rcases hasHead_or_headFault format words with ⟨width, height, head⟩ | ⟨fault, wrong⟩
  · by_cases hall : ∀ k < 3 * (width * height), ∃ v, HasValue kind format words k v
    · obtain ⟨vs, -, hat, -⟩ := ofWords_of_hasValue head (Nat.add_zero _) hall
      exact .inl ⟨_, describes_ofScan head hat⟩
    · right
      classical
      have hbad : ∃ k, k < 3 * (width * height) ∧ ¬ ∃ v, HasValue kind format words k v := by simpa using hall
      obtain ⟨hlt, hnone⟩ := Nat.find_spec hbad
      obtain ⟨x, hx, y, hy, j, hj, hplace⟩ := exists_wordPlace hlt
      have before : ∀ k < wordPlace width height x y j, ∃ v, HasValue kind format words k v := by
        intro k hk
        have hmin := Nat.find_min hbad (hplace ▸ hk)
        exact of_not_not fun hv => hmin ⟨(hplace ▸ hk).trans hlt, hv⟩
      rw [← hplace] at hnone
      cases hfound : words[headLength format + wordPlace width height x y j]? with
      | none => exact ⟨_, .truncated head hx hy hj before hfound⟩
      | some word => exact ⟨_, .word head hx hy hj before hfound fun v hv => hnone ⟨v, word, hfound, hv⟩⟩
  · exact .inr ⟨fault, .head wrong⟩

theorem ofWords_eq_ok_iff : ofWords kind format words = .ok i ↔ Describes kind format words i := by
  refine ⟨fun h => ?_, Describes.ofWords_eq⟩
  rcases describes_or_firstFault kind format words with ⟨j, hj⟩ | ⟨fault, hfault⟩
  · obtain rfl : j = i := Except.ok.inj (hj.ofWords_eq.symm.trans h)
    exact hj
  · cases hfault.ofWords_eq.symm.trans h

theorem ofWords_eq_error_iff : ofWords kind format words = .error fault ↔ FirstFault kind format words fault := by
  refine ⟨fun h => ?_, FirstFault.ofWords_eq⟩
  rcases describes_or_firstFault kind format words with ⟨i, hi⟩ | ⟨found, hfound⟩
  · cases hi.ofWords_eq.symm.trans h
  · obtain rfl : found = fault := Except.error.inj (hfound.ofWords_eq.symm.trans h)
    exact hfound

/-! ## Room for the image -/

/-- The answer of a reader to a file. It gives up, without one, where it has no room for an image of the size that the
first words give. -/
def readDump? (kind : ImageKind) (format : DumpFormat) (bytes : ByteArray) : Option (Except DumpError RgbImage) :=
  if canRead format bytes then some (ofDump kind format bytes) else none

/-- An image of the size that the first words give can be held. -/
def HasRoom (format : DumpFormat) (words : List (List Char)) : Prop :=
  ∀ width height, HasHead format words width height → canHold width height = true

theorem wordsSize?_eq_some_iff :
    wordsSize? format words = some (width, height) ↔ HasHead format words width height := by
  rw [wordsSize?_eq]
  constructor
  · intro h
    rcases hasHead_or_headFault format words with ⟨width', height', head⟩ | ⟨fault, wrong⟩
    · rw [readHead_of_hasHead head] at h
      cases h
      exact head
    · rw [readHead_of_headFault wrong] at h
      cases h
  · intro head
    rw [readHead_of_hasHead head]
    rfl

theorem hasRoom_iff :
    HasRoom format words ↔ (wordsSize? format words).all (fun size => canHold size.1 size.2) = true := by
  simp only [HasRoom, ← wordsSize?_eq_some_iff]
  cases wordsSize? format words with
  | none => simp
  | some size => simp [Prod.ext_iff]

theorem HasHead.hasRoom_iff (head : HasHead format words width height) :
    HasRoom format words ↔ canHold width height = true := by
  rw [RgbImage.hasRoom_iff, wordsSize?_eq_some_iff.mpr head, Option.all_some]

section Text

variable {text : List Char} (hsplits : Text.Splits text words)
include hsplits

/-- What is done with a text depends on its words. -/
theorem readDump?_of_splits (kind : ImageKind) (format : DumpFormat) : readDump? kind format text.utf8Encode =
    if (wordsSize? format words).all (fun size => canHold size.1 size.2) then
      some ((ofWords kind format words).mapError .malformed) else none := by
  obtain rfl := Text.splits_iff.mp hsplits
  have hbytes : text.utf8Encode = (String.ofList text).toUTF8 := rfl
  have hroom : canRead format (String.ofList text).toUTF8 =
      (wordsSize? format (Text.words text)).all fun size => canHold size.1 size.2 := by
    rw [canRead, fromUTF8?_toUTF8]
    simp only [String.toList_ofList]
  rw [hbytes, readDump?, hroom, ofDump_toUTF8]

theorem readDump?_eq_some_iff {answer : Except DumpError RgbImage} :
    readDump? kind format text.utf8Encode = some answer ↔
      HasRoom format words ∧ (ofWords kind format words).mapError .malformed = answer := by
  rw [readDump?_of_splits hsplits, Option.ite_none_right_eq_some, Option.some.injEq, ← hasRoom_iff]

theorem readDump?_eq_none_iff : readDump? kind format text.utf8Encode = none ↔ ¬ HasRoom format words := by
  rw [readDump?_of_splits hsplits, hasRoom_iff]
  simp

theorem readDump?_eq_ok_iff : readDump? kind format text.utf8Encode = some (.ok i) ↔
    Describes kind format words i ∧ HasRoom format words := by
  rw [readDump?_eq_some_iff hsplits, ← ofWords_eq_ok_iff, and_comm]
  cases ofWords kind format words with
  | ok j => simp [Except.mapError]
  | error fault => simp [Except.mapError]

theorem readDump?_eq_error_iff {e : DumpError} : readDump? kind format text.utf8Encode = some (.error e) ↔
    ∃ fault, e = .malformed fault ∧ FirstFault kind format words fault ∧ HasRoom format words := by
  rw [readDump?_eq_some_iff hsplits]
  simp only [← ofWords_eq_error_iff]
  cases ofWords kind format words with
  | ok j => simp [Except.mapError]
  | error found => simp [Except.mapError, and_comm, eq_comm]

end Text

/-- A reader accepts the files whose text is a dump that there is room for, and gives the image that the words describe.
It answers any other file with its first fault, where it does not give up for want of room. Nothing but the words of a
text matters, and no group of digits of a word is cut. -/
theorem readDump?_grammar (kind : ImageKind) (format : DumpFormat) (bytes : ByteArray) :
    (¬ bytes.IsValidUTF8 → readDump? kind format bytes = some (.error .notUtf8)) ∧
    (∀ (text : List Char) (words : List (List Char)), bytes = text.utf8Encode → Text.Splits text words →
      ((∃ i, readDump? kind format bytes = some (.ok i)) ↔ ∃ width height, HasHead format words width height ∧
        (∀ k < 3 * (width * height), ∃ v, HasValue kind format words k v) ∧ canHold width height = true) ∧
      (∀ i, readDump? kind format bytes = some (.ok i) ↔ Describes kind format words i ∧ HasRoom format words) ∧
      (∀ e, readDump? kind format bytes = some (.error e) ↔
        ∃ fault, e = .malformed fault ∧ FirstFault kind format words fault ∧ HasRoom format words) ∧
      (readDump? kind format bytes = none ↔ ¬ HasRoom format words) ∧
      ∀ text' : List Char, Text.Splits text' words →
        readDump? kind format text'.utf8Encode = readDump? kind format bytes) ∧
    ∀ word, Binary32.ofHexWordChecked word = some (Binary32.ofHexWord? word) := by
  refine ⟨fun hinvalid => ?_, ?_, Binary32.ofHexWordChecked_eq⟩
  · have hutf8 : String.fromUTF8? bytes = none := dif_neg hinvalid
    simp only [readDump?, canRead, ofDump, hutf8, if_true]
  · rintro text words rfl hsplits
    refine ⟨?_, fun i => readDump?_eq_ok_iff hsplits, fun e => readDump?_eq_error_iff hsplits,
      readDump?_eq_none_iff hsplits, fun text' hsplits' => ?_⟩
    · simp only [readDump?_eq_ok_iff hsplits]
      constructor
      · rintro ⟨i, hi, hroom⟩
        exact ⟨i.width, i.height, hi.toHasHead, fun k => hi.hasValue, hi.hasRoom_iff.mp hroom⟩
      · rintro ⟨width, height, head, hvalues, hroom⟩
        obtain ⟨vs, -, hat, -⟩ := ofWords_of_hasValue head (Nat.add_zero _) hvalues
        exact ⟨_, describes_ofScan head hat, head.hasRoom_iff.mpr hroom⟩
    · rw [readDump?_of_splits hsplits', readDump?_of_splits hsplits]

/-- The words of the text `FbDump 1 1 0000803f +f000000 FFFFFFFF 0`. -/
def signedWords : List (List Char) :=
  [['F', 'b', 'D', 'u', 'm', 'p'], ['1'], ['1'], ['0', '0', '0', '0', '8', '0', '3', 'f'],
    ['+', 'f', '0', '0', '0', '0', '0', '0'], ['F', 'F', 'F', 'F', 'F', 'F', 'F', 'F'], ['0']]

theorem readDump?_grammar_signedByte :
    (¬ (ByteArray.mk #[0xff]).IsValidUTF8 ∧
      readDump? .beauty .fbd (ByteArray.mk #[0xff]) = some (.error .notUtf8)) ∧
    Text.Splits (signedWords.flatMap (· ++ [' '])) signedWords ∧
    readDump? .beauty .fbd (signedWords.flatMap (· ++ [' '])).utf8Encode =
      some (.ok ⟨1, 1, #[⟨⟨0x3f800000⟩, ⟨0x0000000f⟩, ⟨0xffffffff⟩⟩]⟩) := by
  have hinvalid : ¬ (ByteArray.mk #[0xff]).IsValidUTF8 := by decide
  have hsplits : Text.Splits (signedWords.flatMap (· ++ [' '])) signedWords := Text.splits_iff.mpr (by decide)
  have hread := (readDump?_grammar .beauty .fbd _).2.1 _ _ rfl hsplits
  refine ⟨⟨hinvalid, (readDump?_grammar .beauty .fbd _).1 hinvalid⟩, hsplits, (hread.2.1 _).mpr ⟨?_, ?_⟩⟩
  · exact ofWords_eq_ok_iff.mp (by decide +kernel)
  · exact hasRoom_iff.mpr (by decide)

/-- Where the first words ask for more room than there is, the reader gives up, and does not say that the first pixel is
missing. -/
theorem readDump?_noRoom :
    Text.Splits "FbDump\n1000000000 1000000000\n".toList
      ["FbDump".toList, "1000000000".toList, "1000000000".toList] ∧
    FirstFault .beauty .fbd ["FbDump".toList, "1000000000".toList, "1000000000".toList] (.truncated 0 999999999) ∧
    readDump? .beauty .fbd "FbDump\n1000000000 1000000000\n".toList.utf8Encode = none := by
  have hsplits : Text.Splits "FbDump\n1000000000 1000000000\n".toList
      ["FbDump".toList, "1000000000".toList, "1000000000".toList] := Text.splits_iff.mpr (by decide)
  have head : HasHead .fbd ["FbDump".toList, "1000000000".toList, "1000000000".toList] 1000000000 1000000000 :=
    wordsSize?_eq_some_iff.mp (by decide)
  refine ⟨hsplits, .truncated (j := 0) head (by decide) (by decide) (by decide) nofun rfl, ?_⟩
  rw [readDump?_eq_none_iff hsplits, head.hasRoom_iff]
  decide

end RgbImage

end ProgressiveFrame
