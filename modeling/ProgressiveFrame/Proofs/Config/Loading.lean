import ProgressiveFrame.Config.Reading
import ProgressiveFrame.Proofs.Time.Seconds

/-!
# Loading configurations

A configuration that is loaded is usable, whatever the libraries that read documents and lengths of time make of a text.
If they return, there is one way to load none and have no error to show for it: the window of time is a number of
seconds that cannot be counted. That ends the program.

* `ConfigLibraries.Return`: what is relied on of the libraries.
* `ConfigReading.Writes`: the configuration that has been read, usable or not. `load_eq_ok_iff`: it is loaded just where
  it is usable.
* `ConfigReading.isAbort_load_iff`: where the program ends.
* `ConfigLibraries.ofToml_usable`: what loading a text comes to.
-/

namespace ProgressiveFrame

/-- The libraries return, with a value or with an error, whatever they are given to read. -/
structure ConfigLibraries.Return (libs : ConfigLibraries) : Prop where
  readToml : ∀ s, libs.readToml s ≠ .broken
  parseDuration : ∀ s, libs.parseDuration s ≠ .error .overlong

/-! ## The window of time -/

variable {parse : String → Except DurationFault Duration} {v : WindowValue} {d : Duration}

/-- The length of time that a value writes: that of a text as it is read, and of a number of seconds, which is not
negative and, if it is a decimal one, below `2 ^ 64`, the nearest one. -/
inductive WindowValue.Writes (parse : String → Except DurationFault Duration) : WindowValue → Duration → Prop where
  | text {s : String} {d : Duration} (h : parse s = .ok d) : Writes parse (.text s) d
  | int (n : Nat) : Writes parse (.int n) ⟨n * 1000000000⟩
  | float {x : Float} {q : ℚ} {d : Duration} (value : IsSeconds x q) (below : q < 2 ^ 64) (nearest : d.IsNearest q) :
    Writes parse (.float x) d

theorem WindowValue.duration_eq_ok_iff : v.duration parse = .ok d ↔ v.Writes parse d := by
  constructor
  · intro h
    cases v with
    | text s => exact .text h
    | int n =>
      cases n with
      | ofNat n =>
        cases h
        exact .int n
      | negSucc n =>
        rw [duration, if_pos (Int.negSucc_lt_zero n)] at h
        cases h
    | float x =>
      rw [duration] at h
      split at h
      · cases h
      · rename_i hfine
        rw [Bool.not_eq_true, Bool.or_eq_false_iff] at hfine
        cases hx : Duration.ofFloat? x with
        | none =>
          rw [hx] at h
          cases h
        | some length =>
          rw [hx] at h
          cases h
          obtain ⟨q, hvalue, hbelow, hnearest⟩ := (Duration.ofFloat?_eq_some_iff hfine.1 hfine.2).mp hx
          exact .float hvalue hbelow hnearest
    | other => cases h
  · rintro (h | n | ⟨hvalue, hbelow, hnearest⟩)
    · exact h
    · rfl
    · obtain ⟨hnan, hsign⟩ := hvalue.isNumber
      have hx := (Duration.ofFloat?_eq_some_iff hnan hsign).mpr ⟨_, hvalue, hbelow, hnearest⟩
      simp only [duration, hnan, hsign, hx, Bool.or_self, Bool.false_eq_true, if_false]

/-- Of the values that a window of time may have, only numbers of seconds from `secondsLimit` on end the program,
infinity among them. -/
theorem WindowValue.duration_eq_overlong_iff (hparse : ∀ s, parse s ≠ .error .overlong) :
    v.duration parse = .error .overlong ↔ ∃ x, v = .float x ∧ Float.ofNat secondsLimit ≤ x := by
  have hother (h : ∀ x, v ≠ .float x) : ¬ ∃ x, v = .float x ∧ Float.ofNat secondsLimit ≤ x :=
    fun ⟨x, hx, _⟩ => h x hx
  cases v with
  | text s => exact iff_of_false (hparse s) (hother nofun)
  | int n =>
    refine iff_of_false ?_ (hother nofun)
    rw [duration]
    split <;> exact nofun
  | float x =>
    have hfloat : (∃ y, WindowValue.float x = .float y ∧ Float.ofNat secondsLimit ≤ y) ↔ Float.ofNat secondsLimit ≤ x :=
      ⟨fun ⟨_, hxy, h⟩ => float.inj hxy ▸ h, fun h => ⟨x, rfl, h⟩⟩
    rw [hfloat, duration]
    split
    · rename_i hfault
      exact iff_of_false nofun (not_secondsLimit_le hfault)
    · rename_i hfine
      rw [Bool.not_eq_true, Bool.or_eq_false_iff] at hfine
      rw [← Duration.ofFloat?_eq_none_iff hfine.1 hfine.2]
      cases Duration.ofFloat? x <;> simp
  | other => exact iff_of_false nofun (hother nofun)

/-! ## What has been read -/

/-- The configuration has the settings that are given, this window of time, and for the other settings what they are by
default. -/
structure GivenSettings.Sets (g : GivenSettings) (window : Duration) (c : Configuration) : Prop where
  version : c.version = g.version
  resetMode : c.session.resetMode = g.session.resetMode.getD .preserveColor
  parallelDecode : c.session.parallelDecode = g.session.parallelDecode.getD true
  workerThreads : c.session.workerThreads = g.session.workerThreads.getD 0
  fpsWindow : c.session.fpsWindow = window
  engine : c.denoise.engine = g.denoise.engine.getD .openImageDenoise
  mode : c.denoise.mode = g.denoise.mode.getD .disable
  history : c.denoise.history = g.denoise.history.getD 10

theorem GivenSettings.sets_iff {g : GivenSettings} {window : Option Duration} {c : Configuration} :
    g.Sets (window.getD ⟨3000000000⟩) c ↔ g.configuration window = c := by
  constructor
  · intro h
    obtain ⟨version, ⟨resetMode, parallelDecode, workerThreads, fpsWindow⟩, ⟨engine, mode, history⟩⟩ := c
    obtain ⟨rfl, rfl, rfl, rfl, rfl, rfl, rfl, rfl⟩ := h
    rfl
  · rintro rfl
    exact ⟨rfl, rfl, rfl, rfl, rfl, rfl, rfl, rfl⟩

/-- That settings are unusable is reported as an error. -/
theorem Configuration.isAbort_of_validate {c : Configuration} {e : ConfigError} (h : c.validate = .error e) :
    e.isAbort = false := by
  grind [validate, fault?, ConfigError.isAbort]

namespace ConfigReading

variable {r : ConfigReading} {c : Configuration}

/-- The configuration that has been read, usable or not. Where no window of time is given it has three seconds. -/
inductive Writes (parse : String → Except DurationFault Duration) : ConfigReading → Configuration → Prop where
  | settings {g : GivenSettings} {c : Configuration} (sets : g.Sets ⟨3000000000⟩ c) : Writes parse (.settings g) c
  | window {v : WindowValue} {d : Duration} {g : GivenSettings} {c : Configuration} (writes : v.Writes parse d)
    (sets : g.Sets d c) : Writes parse (.window v (some g)) c

/-- What has been read is loaded if it is usable. -/
theorem load_eq_ok_iff : r.load parse = .ok c ↔
    r.Writes parse c ∧ c.version = 1 ∧ 0 < c.session.fpsWindow.nanos ∧ 1 ≤ c.denoise.history := by
  have hvalidate (read : Configuration) : read.validate = .ok c ↔
      read = c ∧ c.version = 1 ∧ 0 < c.session.fpsWindow.nanos ∧ 1 ≤ c.denoise.history := by
    rw [Configuration.validate_eq_ok_iff]
    exact and_congr_right fun h => h ▸ Iff.rfl
  cases r with
  | refused => exact iff_of_false nofun fun h => nomatch h.1
  | broken => exact iff_of_false nofun fun h => nomatch h.1
  | settings g =>
    rw [load, hvalidate, ← GivenSettings.sets_iff]
    refine and_congr_left fun _ => ⟨.settings, ?_⟩
    rintro ⟨sets⟩
    exact sets
  | window v rest =>
    rw [load]
    cases hv : v.duration parse with
    | error e =>
      refine iff_of_false nofun ?_
      rintro ⟨⟨⟩ | ⟨writes, -⟩, -⟩
      cases hv.symm.trans (WindowValue.duration_eq_ok_iff.mpr writes)
    | ok d =>
      cases rest with
      | none => exact iff_of_false nofun fun h => nomatch h.1
      | some g =>
        rw [hvalidate, ← GivenSettings.sets_iff]
        refine and_congr_left fun _ => ⟨.window (WindowValue.duration_eq_ok_iff.mp hv), ?_⟩
        rintro (- | ⟨writes, sets⟩)
        obtain rfl := Except.ok.inj (hv.symm.trans (WindowValue.duration_eq_ok_iff.mpr writes))
        exact sets

/-- Loading ends the program where the reader does so, and where a window of time is met that does. -/
theorem isAbort_load_iff : (∃ e, r.load parse = .error e ∧ e.isAbort = true) ↔
    r = .broken ∨ ∃ v rest, r = .window v rest ∧ v.duration parse = .error .overlong := by
  have hmalformed : ¬ ∃ e, (.error .malformed : Except ConfigError Configuration) = .error e ∧ e.isAbort = true := by
    rintro ⟨e, ⟨⟩, habort⟩
    cases habort
  have hvalidate (read : Configuration) : ¬ ∃ e, read.validate = .error e ∧ e.isAbort = true := by
    rintro ⟨e, he, habort⟩
    rw [Configuration.isAbort_of_validate he] at habort
    cases habort
  cases r with
  | refused =>
    rw [load]
    simpa using hmalformed
  | broken => exact iff_of_true ⟨_, rfl, rfl⟩ (.inl rfl)
  | settings g =>
    rw [load]
    simpa using hvalidate _
  | window v rest =>
    simp only [reduceCtorEq, window.injEq, false_or, ↓existsAndEq, and_true, true_and]
    rw [load]
    cases v.duration parse with
    | error e => cases e <;> simp [DurationFault.inConfig, ConfigError.isAbort]
    | ok d =>
      cases rest with
      | none => simpa using hmalformed
      | some g => simpa using hvalidate _

end ConfigReading

/-! ## Texts -/

namespace ConfigLibraries

/-- Loading a text comes to a usable configuration or to an error, but for one case. If the libraries return, it comes
to a configuration just where the text writes one that is usable: its version is the one that is understood, its window
of time is not empty, and its histories have room for a value. It comes to the end of the program just where the reader
of documents hands on a window of time of `2 ^ 64` seconds or more, as a decimal number. -/
theorem ofToml_usable (libs : ConfigLibraries) (returns : libs.Return) (s : String) :
    (∀ c, libs.ofToml s = .ok c ↔ (libs.readToml s).Writes libs.parseDuration c ∧
      c.version = 1 ∧ 0 < c.session.fpsWindow.nanos ∧ 1 ≤ c.denoise.history) ∧
    ((∃ e, libs.ofToml s = .error e ∧ e.isAbort = true) ↔
      ∃ x rest, libs.readToml s = .window (.float x) rest ∧ Float.ofNat (2 ^ 64) ≤ x) := by
  refine ⟨fun c => ConfigReading.load_eq_ok_iff, ?_⟩
  have hlimit : secondsLimit = 2 ^ 64 := by decide
  rw [ofToml, ConfigReading.isAbort_load_iff, or_iff_right (returns.readToml s), ← hlimit]
  simp only [WindowValue.duration_eq_overlong_iff returns.parseDuration]
  constructor
  · rintro ⟨_, rest, hread, x, rfl, hx⟩
    exact ⟨x, rest, hread, hx⟩
  · rintro ⟨x, rest, hread, hx⟩
    exact ⟨_, rest, hread, x, rfl, hx⟩

/-- Libraries that know one length of time and two documents, with a window of time in words and with one of `1e20`
seconds. -/
def sample : ConfigLibraries where
  readToml s :=
    if s = "version = 1\n[session]\nfps_window = \"1500ms\"\n" then
      .window (.text "1500ms") (some { version := 1 })
    else if s = "version = 1\n[session]\nfps_window = 1e20\n" then .window (.float 1e20) (some { version := 1 })
    else .refused
  parseDuration s := if s = "1500ms" then .ok ⟨1500000000⟩ else .error .refused

theorem return_sample : sample.Return where
  readToml s := by
    unfold sample
    dsimp only
    split
    · exact nofun
    · split <;> exact nofun
  parseDuration s := by
    unfold sample
    dsimp only
    split <;> exact nofun

/-- The first document is loaded, and the second one ends the program. -/
theorem ofToml_usable_sample :
    sample.ofToml "version = 1\n[session]\nfps_window = \"1500ms\"\n" =
        .ok { session := { fpsWindow := ⟨1500000000⟩ } } ∧
      ∃ e, sample.ofToml "version = 1\n[session]\nfps_window = 1e20\n" = .error e ∧ e.isAbort = true := by
  refine ⟨((ofToml_usable sample return_sample _).1 _).mpr ⟨?_, rfl, by decide, by decide⟩,
    (ofToml_usable sample return_sample _).2.mpr ⟨1e20, some { version := 1 }, rfl, by decide +kernel⟩⟩
  exact .window (.text rfl) ⟨rfl, rfl, rfl, rfl, rfl, rfl, rfl, rfl⟩

/-- A window of `1e20` seconds ends the program, in a document that has no other fault. -/
theorem ofToml_overlongWindow :
    sample.ofToml "version = 1\n[session]\nfps_window = 1e20\n" = .error .overlongDuration := by
  decide +kernel

end ConfigLibraries

end ProgressiveFrame
