import Mathlib.Logic.Function.Basic
import ProgressiveFrame.Proofs.Text.Words
import ProgressiveFrame.Verify.Frame

/-!
# Names of dump files

The name of a dump is made of parts with an underscore between any two. No part holds an underscore, so the name tells
its parts, and these tell the dump.

* `DumpKey.fileName_eq`: the parts of a name.
* `DumpKey.parts_injective`: dumps with the same parts are the same.
* `DumpKey.path_injective`: no two dumps share a file.
-/

namespace ProgressiveFrame

theorem Text.decimal_injective : Function.Injective Text.decimal := by
  intro m n h
  have hvalue := congrArg (Nat.ofDigitChars 10 · 0) h
  simpa only [Text.decimal, Nat.ofDigitChars_ten_toDigits] using hvalue

theorem Text.underscore_notMem_decimal (n : Nat) : '_' ∉ Text.decimal n := by
  intro h
  obtain ⟨d, hd, hchar⟩ := exists_digitChar_of_mem_decimal h
  revert d
  decide

/-- Different files of a directory have different names. -/
theorem joinPath_injective (dir : String) : Function.Injective (joinPath dir) := by
  intro a b h
  unfold joinPath at h
  split at h
  · exact h
  · split at h
    · simpa using h
    · simpa using h

namespace DumpKey

variable {k l : DumpKey}

/-- The last part of a name, with the ending of the file. -/
def ending (word : String) (format : DumpFormat) : List Char := word.toList ++ '.' :: format.extension.toList

/-- The parts of a name, which stand between underscores. -/
def parts (k : DumpKey) : List (List Char) :=
  let frame := "fId".toList ++ Text.decimal k.frame
  let machine (m : Nat) := "mId".toList ++ Text.decimal m
  match k.source with
  | .mergeAll => ["mergeAll".toList, frame, ending k.kind.label k.format]
  | .merge m => ["merge".toList, frame, machine m, ending k.kind.label k.format]
  | .machine m stage => ["mcrt".toList, frame, machine m, k.kind.label.toList, ending stage.suffix k.format]

theorem fileName_eq (k : DumpKey) : k.fileName = String.ofList (['_'].intercalate k.parts) := by
  obtain ⟨frame, source, kind, format⟩ := k
  rw [← String.toList_inj, String.toList_ofList]
  unfold fileName
  -- The texts of the numbers have no name here, so each name is put down in full.
  cases source with
  | mergeAll =>
    show String.toList ("mergeAll_fId" ++ String.ofList (Text.decimal frame) ++ "_" ++ kind.label ++ "." ++
      format.extension) = _
    simp [parts, ending, List.intercalate]
  | merge m =>
    show String.toList ("merge_fId" ++ String.ofList (Text.decimal frame) ++ "_mId" ++ String.ofList (Text.decimal m) ++
      "_" ++ kind.label ++ "." ++ format.extension) = _
    simp [parts, ending, List.intercalate]
  | machine m stage =>
    show String.toList ("mcrt_fId" ++ String.ofList (Text.decimal frame) ++ "_mId" ++ String.ofList (Text.decimal m) ++
      "_" ++ kind.label ++ "_" ++ stage.suffix ++ "." ++ format.extension) = _
    simp [parts, ending, List.intercalate]

theorem underscore_notMem_parts {part : List Char} (h : part ∈ k.parts) : '_' ∉ part := by
  obtain ⟨frame, source, kind, format⟩ := k
  have hnumber (word : List Char) (hword : '_' ∉ word) (n : Nat) : '_' ∉ word ++ Text.decimal n := by
    rw [List.mem_append, not_or]
    exact ⟨hword, Text.underscore_notMem_decimal n⟩
  have hlabel : '_' ∉ kind.label.toList := by cases kind <;> decide
  have hkind : '_' ∉ ending kind.label format := by cases kind <;> cases format <;> decide
  cases source with
  | mergeAll =>
    simp only [parts, List.mem_cons, List.not_mem_nil, or_false] at h
    rcases h with rfl | rfl | rfl
    · decide
    · exact hnumber _ (by decide) _
    · exact hkind
  | merge m =>
    simp only [parts, List.mem_cons, List.not_mem_nil, or_false] at h
    rcases h with rfl | rfl | rfl | rfl
    · decide
    · exact hnumber _ (by decide) _
    · exact hnumber _ (by decide) _
    · exact hkind
  | machine m stage =>
    have hstage : '_' ∉ ending stage.suffix format := by cases stage <;> cases format <;> decide
    simp only [parts, List.mem_cons, List.not_mem_nil, or_false] at h
    rcases h with rfl | rfl | rfl | rfl | rfl
    · decide
    · exact hnumber _ (by decide) _
    · exact hnumber _ (by decide) _
    · exact hlabel
    · exact hstage

theorem ending_label_inj {a b : ImageKind} {f g : DumpFormat} (h : ending a.label f = ending b.label g) :
    a = b ∧ f = g := by
  revert h
  cases a <;> cases b <;> cases f <;> cases g <;> decide

theorem ending_suffix_inj {s t : Stage} {f g : DumpFormat} (h : ending s.suffix f = ending t.suffix g) :
    s = t ∧ f = g := by
  revert h
  cases s <;> cases t <;> cases f <;> cases g <;> decide

theorem label_inj {a b : ImageKind} (h : a.label.toList = b.label.toList) : a = b := by
  revert h
  cases a <;> cases b <;> decide

theorem numbered_inj {word : List Char} {m n : Nat} (h : word ++ Text.decimal m = word ++ Text.decimal n) : m = n :=
  Text.decimal_injective (List.append_cancel_left h)

/-- The parts of a name tell the dump. -/
theorem parts_injective : Function.Injective parts := by
  rintro ⟨frame, source, kind, format⟩ ⟨frame', source', kind', format'⟩ h
  cases source with
  | mergeAll =>
    cases source' with
    | mergeAll =>
      obtain ⟨hframe, hend⟩ := by simpa only [parts, List.cons.injEq, true_and, and_true] using h
      obtain rfl := numbered_inj hframe
      obtain ⟨rfl, rfl⟩ := ending_label_inj hend
      rfl
    | _ => simp [parts] at h
  | merge m =>
    cases source' with
    | merge m' =>
      obtain ⟨hframe, hmachine, hend⟩ := by simpa only [parts, List.cons.injEq, true_and, and_true] using h
      obtain rfl := numbered_inj hframe
      obtain rfl := numbered_inj hmachine
      obtain ⟨rfl, rfl⟩ := ending_label_inj hend
      rfl
    | _ => simp [parts] at h
  | machine m stage =>
    cases source' with
    | machine m' stage' =>
      obtain ⟨hframe, hmachine, hlabel, hend⟩ := by simpa only [parts, List.cons.injEq, true_and, and_true] using h
      obtain rfl := numbered_inj hframe
      obtain rfl := numbered_inj hmachine
      obtain rfl := label_inj hlabel
      obtain ⟨rfl, rfl⟩ := ending_suffix_inj hend
      rfl
    | _ => simp [parts] at h

/-- A name is cut at its underscores into its parts. -/
theorem splitOn_fileName (k : DumpKey) : k.fileName.toList.splitOn '_' = k.parts := by
  have hne : k.parts ≠ [] := by
    unfold parts
    split <;> exact nofun
  rw [fileName_eq, String.toList_ofList, List.splitOn_intercalate '_' (fun _ => underscore_notMem_parts) hne]

theorem fileName_injective : Function.Injective fileName := by
  intro k l h
  apply parts_injective
  rw [← splitOn_fileName, ← splitOn_fileName, h]

/-- No two dumps share a file. -/
theorem path_injective (dir : String) : Function.Injective fun k : DumpKey => k.path dir :=
  (joinPath_injective dir).comp fileName_injective

end DumpKey

end ProgressiveFrame
