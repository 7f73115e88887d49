import Mathlib
import Decimation.Cli.Actions
import Decimation.Downsampling
import Decimation.Proofs.Except
/-!
# Flags laid over a configuration file

`run` reads its configuration from a YAML file and lets every flag that is given override the
file, setting by setting. Setting by setting the rule reads (`runConfig_eq_build`):

* the width is the value of `--width` (the default `1000` when the flag is not given) if the flag
  is given or the file names no width, and the file's width otherwise;
* the algorithm's name is the value of `--algorithm` (the default `lttb`) if the flag is given or
  the file names none, and the file's otherwise; an empty name sets nothing;
* each bound of the x-range is the flag's (`--x-start`, `--x-end`) if it is given, else the
  file's, else the open bound `-Inf` or `+Inf`; a range that bounds nothing sets nothing.

The configuration is built from that width and those options, and a refusal comes back as a
configuration error of the run. `RunSettings.overlay` gets there another way: it lays the flags
over the file's configuration and hands the result to `FileConfig.config`, where a missing range
stands for the unbounded one (`FileConfig.options_eq`).
-/

namespace Decimation

/-- The options an algorithm's name and a range set: the name when it is not empty, and the range
when it bounds something. -/
def settingOptions (name : List UInt8) (r : XRange) : List (Option ConfigOption) :=
  (if name.isEmpty then [] else [some (.algorithmName name)]) ++
    (if r.unbounded then [] else [some (.xRange r)])

namespace FileConfig

/-- The range a file sets: `[-Inf, +Inf)` when it gives none. -/
def rangeOrAll (c : FileConfig) : XRange := (c.xRange.map FileRange.range).getD XRange.all

theorem all_unbounded : XRange.all.unbounded = true := by
  decide +kernel

/-- A file's options are those of its algorithm's name and its range. -/
theorem options_eq (c : FileConfig) : c.options = settingOptions c.algorithm c.rangeOrAll := by
  unfold options settingOptions rangeOrAll
  congr 1
  cases c.xRange with
  | none => simp only [Option.map_none, Option.getD_none, all_unbounded, ↓reduceIte]
  | some r => rfl

end FileConfig

namespace Cli.RunSettings

variable (s : RunSettings) (fc : FileConfig)

/-- The value of `--width`: the width given, or the default. -/
def widthValue : Int := s.width.getD defaultWidth

/-- The value of `--algorithm` as bytes: the name given, or the default algorithm's. -/
def algorithmValue : List UInt8 := (s.algorithm.getD Algorithm.lttb.name).toUTF8.toList

/-- The width of a run: the flag's value if the flag is given or the file has no width, else the
file's width. -/
def mergedWidth : Int :=
  if s.width.isSome || fc.width.isNone then s.widthValue else fc.widthOrZero

/-- The algorithm's name of a run: the flag's value if the flag is given or the file names no
algorithm, else the file's. -/
def mergedAlgorithm : List UInt8 :=
  if s.algorithm.isSome || fc.algorithm.isEmpty then s.algorithmValue else fc.algorithm

/-- The x-range of a run: each bound the flag's if given, else the file's, else open. -/
def mergedRange : XRange :=
  ⟨(s.xStart.or (fc.xRange.bind FileRange.start)).getD (-posInfinity),
    (s.xEnd.or (fc.xRange.bind FileRange.stop)).getD posInfinity⟩

/-- The options of a run besides its width. -/
def mergedOptions : List (Option ConfigOption) := settingOptions (s.mergedAlgorithm fc) (s.mergedRange fc)

theorem overlay_widthOrZero : (s.overlay fc).widthOrZero = s.mergedWidth fc := by
  unfold overlay mergedWidth widthValue FileConfig.widthOrZero
  cases s.width <;> cases fc.width <;> rfl

theorem overlay_algorithm : (s.overlay fc).algorithm = s.mergedAlgorithm fc := by
  unfold overlay mergedAlgorithm algorithmValue
  cases s.algorithm <;> rfl

/-- Without a range flag the file's range stands; with one, the flags' bounds replace the file's
one by one. Either way the range is the merged one. -/
theorem overlay_rangeOrAll : (s.overlay fc).rangeOrAll = s.mergedRange fc := by
  unfold overlay mergedRange FileConfig.rangeOrAll
  cases s.xStart <;> cases s.xEnd <;> cases fc.xRange <;> rfl

theorem overlay_options : (s.overlay fc).options = s.mergedOptions fc := by
  rw [FileConfig.options_eq, overlay_algorithm, overlay_rangeOrAll]
  rfl

end Cli.RunSettings

namespace Cli.MemoryStore

/-- The empty path names no file. -/
theorem read_of_isEmpty (st : MemoryStore) {p : String} (h : p.isEmpty = true) :
    st.read p = .error ⟨"open", p, .notFound⟩ := by
  simp [read, resolve, h]

end Cli.MemoryStore

namespace Cli

/-- With a configuration file that reads as `fc`, `run` lays its flags over `fc`. -/
theorem runConfig_overlay (s : RunSettings) (st : MemoryStore) {bs : ByteArray} {fc : FileConfig}
    (hread : st.read s.config = .ok bs) (hfile : readFileConfig bs.toList = .ok fc) :
    (runConfig s : StateM MemoryStore _).run' st = ((s.overlay fc).config).mapError .config := by
  -- a file that reads has a name, so the file is read
  have hpath : s.config.isEmpty = false := by
    cases h : s.config.isEmpty
    · rfl
    · rw [MemoryStore.read_of_isEmpty st h] at hread
      cases hread
  simp only [runConfig, hpath]
  simp [FileStore.readFile, hread, hfile, Config.mapError_ok]
  rfl

/-- For every configuration file that reads, `run` builds its configuration from the merged width
and the options of the merged algorithm's name and range, each setting taken from its flag if
given, else from the file, else from the flag's default or the open range; a refusal is a
configuration error of the run. -/
theorem runConfig_eq_build (s : RunSettings) (st : MemoryStore) {bs : ByteArray} {fc : FileConfig}
    (hread : st.read s.config = .ok bs) (hfile : readFileConfig bs.toList = .ok fc) :
    (runConfig s : StateM MemoryStore _).run' st =
      (Config.build (s.mergedWidth fc) (s.mergedOptions fc)).mapError .config := by
  rw [runConfig_overlay s st hread hfile, FileConfig.config, RunSettings.overlay_widthOrZero,
    RunSettings.overlay_options]

/-- A file naming `nth` and the width `5`, with only `--x-start 0` given: the width and the
algorithm come from the file, the range `[0, +Inf)` from the flag. -/
theorem runConfig_eq_build_nthFile :
    let st : MemoryStore := ⟨[], [("run.yaml", "algorithm: nth\nwidth: 5\n".toUTF8)]⟩
    let s : RunSettings := ⟨"in.csv", "run.yaml", none, none, some 0, none, "", "", "none", "delta",
      false⟩
    let fc : FileConfig := ⟨"nth".toUTF8.toList, some 5, none⟩
    (st.read s.config = .ok "algorithm: nth\nwidth: 5\n".toUTF8 ∧
        readFileConfig "algorithm: nth\nwidth: 5\n".toUTF8.toList = .ok fc) ∧
      (runConfig s : StateM MemoryStore _).run' st =
        (Config.build (s.mergedWidth fc) (s.mergedOptions fc)).mapError .config := by
  intro st s fc
  have hsplit : "run.yaml".splitOn "/" = ["run.yaml"] := by
    simp +decide [String.splitOn, String.splitOnAux.eq_1]
  have hread : st.read s.config = .ok "algorithm: nth\nwidth: 5\n".toUTF8 := by
    simp [st, s, MemoryStore.read, MemoryStore.resolve, hsplit, MemoryStore.walk, joinPath,
      MemoryStore.find?]
  -- the reader is run by the kernel on what decides the configuration: a name, a width and no range
  have hfile : readFileConfig "algorithm: nth\nwidth: 5\n".toUTF8.toList = .ok fc := by
    have h : ((readFileConfig "algorithm: nth\nwidth: 5\n".toUTF8.toList).toOption.map
        fun c => (c.algorithm, c.width, c.xRange.isNone)) =
        some ("nth".toUTF8.toList, some 5, true) := by
      decide +kernel
    obtain ⟨⟨a, w, r⟩, hc, hproj⟩ := Option.map_eq_some_iff.mp h
    simp only [Prod.mk.injEq, Option.isNone_iff_eq_none] at hproj
    obtain ⟨rfl, rfl, rfl⟩ := hproj
    exact eq_ok_of_toOption hc
  exact ⟨⟨hread, hfile⟩, runConfig_eq_build s st hread hfile⟩

end Cli

end Decimation
