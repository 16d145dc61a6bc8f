import Accumulator.Proofs.CommandLines
/-!
# Flags over files

Every setting but the prompt has a flag, and a flag that is given decides its setting alone.  What a
file says about that setting then matters in one respect only: the file has to be valid by itself,
before any flag is looked at.
-/

namespace Accumulator.Proofs.Overriding

open Cli CommandLines

/-! ## Settings one by one -/

def flagOf? : Setting → Option Flag
  | .prompt => none
  | .logLevel => some .logLevel
  | .output => some .json
  | .writeXorExecute => some .wxorx
  | .emulate => some .emulate
  | .showCode => some .dump

def valueOf (c : Config) : Setting → Toml.Value
  | .prompt => .string c.prompt
  | .logLevel => .string c.logLevel
  | .output => .string c.output
  | .writeXorExecute => .bool c.writeXorExecute
  | .emulate => .bool c.emulate
  | .showCode => .bool c.showCode

def overriding? (o : Options) : Setting → Option Toml.Value
  | .prompt => none
  | .logLevel => o.logLevel.map .string
  | .output => o.json.map fun json => .string (if json then Format.json.name else Format.text.name)
  | .writeXorExecute => o.wxorx.map .bool
  | .emulate => o.emulate.map .bool
  | .showCode => o.dump.map .bool

theorem ext_valueOf {c d : Config} (hsame : ∀ s, valueOf c s = valueOf d s) : c = d := by
  have hprompt := hsame .prompt
  have hlogLevel := hsame .logLevel
  have houtput := hsame .output
  have hwriteXorExecute := hsame .writeXorExecute
  have hemulate := hsame .emulate
  have hshowCode := hsame .showCode
  cases c
  cases d
  simp_all [valueOf]

theorem valueOf_override (o : Options) (c : Config) (s : Setting) :
    valueOf (o.override c) s = (overriding? o s).getD (valueOf c s) := by
  cases s with
  | prompt => rfl
  | logLevel => cases h : o.logLevel <;> simp [valueOf, overriding?, Options.override, h]
  | output =>
      cases h : o.json with
      | none => simp [valueOf, overriding?, Options.override, h]
      | some json => cases json <;> simp [valueOf, overriding?, Options.override, h]
  | writeXorExecute => cases h : o.wxorx <;> simp [valueOf, overriding?, Options.override, h]
  | emulate => cases h : o.emulate <;> simp [valueOf, overriding?, Options.override, h]
  | showCode => cases h : o.dump <;> simp [valueOf, overriding?, Options.override, h]

def Overridden (given : List Given) (s : Setting) : Prop :=
  ∃ g ∈ given, flagOf? s = some g.flag

instance (given : List Given) (s : Setting) : Decidable (Overridden given s) :=
  inferInstanceAs (Decidable (∃ g ∈ given, flagOf? s = some g.flag))

theorem isSome_overriding_apply (o : Options) (g : Given) (s : Setting) :
    (overriding? (g.apply o) s).isSome = true ↔
      flagOf? s = some g.flag ∨ (overriding? o s).isSome = true := by
  cases g with
  | text f hkind value =>
      cases f <;> cases hkind <;> cases s <;>
        simp [overriding?, flagOf?, Given.apply, Given.flag, Options.setText]
  | switch f hkind value =>
      cases f <;> cases hkind <;> cases s <;>
        simp [overriding?, flagOf?, Given.apply, Given.flag, Options.setSwitch]

theorem isSome_overriding_foldl (o : Options) (given : List Given) (s : Setting) :
    (overriding? (given.foldl Given.apply o) s).isSome = true ↔
      Overridden given s ∨ (overriding? o s).isSome = true := by
  induction given generalizing o with
  | nil => simp [Overridden]
  | cons g given ih =>
      rw [List.foldl_cons, ih, isSome_overriding_apply]
      simp only [Overridden, List.mem_cons, exists_eq_or_imp]
      rw [or_left_comm, or_assoc]

theorem isSome_overriding_iff (given : List Given) (paths : List Bytes) (s : Setting) :
    (overriding? (optionsOf given paths) s).isSome = true ↔ Overridden given s := by
  have hpaths : overriding? (optionsOf given paths) s =
      overriding? (given.foldl Given.apply {}) s := by cases s <;> rfl
  have hnone : overriding? ({} : Options) s = none := by cases s <;> rfl
  rw [hpaths, isSome_overriding_foldl, hnone]
  simp

/-- The two say the same about every setting whose flag is not given. -/
def AgreeBut (given : List Given) (c d : Config) : Prop :=
  ∀ s, ¬ Overridden given s → valueOf c s = valueOf d s

theorem mem_all (s : Setting) : s ∈ Setting.all := by
  cases s <;> decide

instance (given : List Given) (c d : Config) : Decidable (AgreeBut given c d) :=
  decidable_of_iff (∀ s ∈ Setting.all, ¬ Overridden given s → valueOf c s = valueOf d s)
    ⟨fun hagree s => hagree s (mem_all s), fun hagree s _ => hagree s⟩

theorem override_congr {given : List Given} {c d : Config} (hagree : AgreeBut given c d)
    (paths : List Bytes) :
    (optionsOf given paths).override c = (optionsOf given paths).override d := by
  apply ext_valueOf
  intro s
  rw [valueOf_override, valueOf_override]
  cases hvalue : overriding? (optionsOf given paths) s with
  | some value => rfl
  | none =>
      have hnot : ¬ Overridden given s := by
        rw [← isSome_overriding_iff given paths s, hvalue]
        exact Bool.false_ne_true
      exact hagree s hnot

/-! ## The file -/

/-- The file at a path can be read, and what it says makes the settings `c`, which need not be valid. -/
def Reads (files : FileSystem) (path : Bytes) (c : Config) : Prop :=
  ∃ text, Config.content files path = .ok text ∧
    Config.ofDocument (Toml.Document.ofText text) = .ok c

def Valid (c : Config) : Prop :=
  (Format.ofName? c.output).isSome = true

instance (c : Config) : Decidable (Valid c) :=
  inferInstanceAs (Decidable (_ = _))

theorem validate_eq (c : Config) :
    c.validate = if Valid c then .ok c else .error (.unknownOutput c.output) := by
  cases hformat : Format.ofName? c.output <;> simp [Config.validate, Valid, hformat]

theorem valid_override {c : Config} (hvalid : Valid c) (o : Options) : Valid (o.override c) := by
  unfold Valid Options.override
  cases o.json with
  | none => exact hvalid
  | some json =>
      cases json with
      | true => exact (by decide : (Format.ofName? Format.json.name).isSome = true)
      | false => exact (by decide : (Format.ofName? Format.text.name).isSome = true)

theorem load_of_reads {files : FileSystem} {path : Bytes} {c : Config}
    (hreads : Reads files path c) :
    Config.load files path = if Valid c then .ok c else .error (.unknownOutput c.output) := by
  obtain ⟨text, hcontent, hdocument⟩ := hreads
  rw [← validate_eq, Config.load, hcontent]
  show (Config.ofDocument (Toml.Document.ofText text) >>= Config.validate) = c.validate
  rw [hdocument]
  rfl

theorem loadOptional_of_reads {files : FileSystem} {path : Bytes} {c : Config}
    (hreads : Reads files path c) : Config.loadOptional files path = Config.load files path := by
  unfold Config.loadOptional
  rw [load_of_reads hreads]
  by_cases hvalid : Valid c
  · rw [if_pos hvalid]
  · rw [if_neg hvalid]

/-- The settings of a command line.  The file is checked first, and for a valid one what the flags do
not say is taken from it. -/
theorem settings_of_reads {o : Options} {files : FileSystem} {c : Config}
    (hreads : Reads files (configFile o) c) :
    o.settings files =
      if Valid c then .ok (o.override c) else .error (.unknownOutput c.output) := by
  have hsettings : o.settings files =
      (Config.load files (configFile o) >>= fun c => (o.override c).validate) := by
    unfold configFile at hreads ⊢
    unfold Options.settings
    by_cases hnone : o.config = []
    · rw [if_pos hnone] at hreads ⊢
      rw [if_pos hnone, loadOptional_of_reads hreads]
    · rw [if_neg hnone, if_neg hnone]
  rw [hsettings, load_of_reads hreads]
  by_cases hvalid : Valid c
  · rw [if_pos hvalid, if_pos hvalid]
    show (o.override c).validate = _
    rw [validate_eq, if_pos (valid_override hvalid o)]
  · rw [if_neg hvalid, if_neg hvalid]
    rfl

/-! ## Runs -/

def filesRun (o : Options) : List Bytes :=
  if o.eval = [] then o.paths else []

theorem runFile_congr {files others : FileSystem} {path : Bytes} (hsame : files path = others path)
    (config : ReplConfig) (b : Batch) :
    b.runFile config files path = b.runFile config others path := by
  unfold Batch.runFile
  rw [hsame]

theorem runFiles_congr {files others : FileSystem} {paths : List Bytes}
    (hsame : ∀ path ∈ paths, files path = others path) (config : ReplConfig) (b : Batch) :
    b.runFiles config files paths = b.runFiles config others paths := by
  induction paths generalizing b with
  | nil => rfl
  | cons path paths ih =>
      have hrest : ∀ path ∈ paths, files path = others path := by
        intro other hother
        exact hsame other (List.mem_cons_of_mem path hother)
      show Batch.runFiles _ _ (b.runFile config files path) paths = _
      rw [runFile_congr (hsame path List.mem_cons_self), ih hrest]
      rfl

structure AlikeButFiles (world other : World) : Prop where
  stdin : other.stdin = world.stdin
  stdout : other.stdout = world.stdout
  host : other.host = world.host
  encoder : other.encoder = world.encoder

theorem runWith_congr {o : Options} {world other : World} (halike : AlikeButFiles world other)
    (hfiles : ∀ path ∈ filesRun o, other.files path = world.files path) (c : Config) :
    runWith o c other = runWith o c world := by
  have hloop := loopOver_congr halike.stdout halike.host halike.encoder c
  have hengine : engineOf c other = engineOf c world := by rw [engineOf, engineOf, halike.host]
  have hconfig : replConfigOf c other false = replConfigOf c world false := by
    rw [replConfigOf, replConfigOf, halike.encoder]
  unfold runWith runProgram runInteractive
  rw [hloop, hloop, hengine, hconfig, halike.stdin, halike.stdout]
  by_cases hprogram : o.eval = []
  · rw [filesRun, if_pos hprogram] at hfiles
    simp only [runFiles_congr hfiles]
  · rw [if_pos hprogram, if_pos hprogram]

theorem run_of_refused {arguments paths : List Bytes} {given : List Given} {world : World}
    {output : Bytes} (hline : CommandLine arguments given paths)
    (hsettings : (optionsOf given paths).settings world.files = .error (.unknownOutput output)) :
    (run arguments world).ending = .exit 1 ∧
      (run arguments world).stdout = { sink := world.stdout } := by
  have hprepare : prepare arguments world.files =
      .error (refuseSettings (.unknownOutput output)) := by
    simp only [prepare, hline.parse_eq, hsettings]
  rw [run, hprepare]
  exact ⟨rfl, rfl⟩

theorem run_congr {arguments paths : List Bytes} {given : List Given} {world other : World}
    {e : Config} (hline : CommandLine arguments given paths)
    (hworld : (optionsOf given paths).settings world.files = .ok e)
    (hother : (optionsOf given paths).settings other.files = .ok e)
    (hstdout : other.stdout = world.stdout)
    (hruns : runWith (optionsOf given paths) e other = runWith (optionsOf given paths) e world) :
    run arguments other = run arguments world := by
  unfold run prepare
  simp only [hline.parse_eq, hworld, hother]
  cases Log.Level.ofName? e.logLevel with
  | none => simp only [hstdout]
  | some level => simp only [hruns]

/-- Two files that say the same about every setting whose flag is not given lead to one and the same
configuration, as far as they are valid; one that is not valid is refused, whatever the flags say.  If
both are valid or neither is, the command line ends in the same way and writes the same in both cases,
unless a file that it runs is not the same in both. -/
theorem flags_override_file {arguments paths : List Bytes} {given : List Given}
    {world other : World} {c d : Config} (hline : CommandLine arguments given paths)
    (hworld : Reads world.files (configFile (optionsOf given paths)) c)
    (hother : Reads other.files (configFile (optionsOf given paths)) d)
    (hagree : AgreeBut given c d) :
    let o := optionsOf given paths
    (∃ e : Config,
      o.settings world.files = (if Valid c then .ok e else .error (.unknownOutput c.output)) ∧
      o.settings other.files = (if Valid d then .ok e else .error (.unknownOutput d.output))) ∧
    ((Valid c ↔ Valid d) → AlikeButFiles world other →
      (∀ path ∈ filesRun o, other.files path = world.files path) →
      (run arguments other).ending = (run arguments world).ending ∧
        (run arguments other).stdout = (run arguments world).stdout) := by
  intro o
  have hc := settings_of_reads hworld
  have hd := settings_of_reads hother
  rw [← override_congr hagree paths] at hd
  refine ⟨⟨o.override c, hc, hd⟩, ?_⟩
  intro hsame halike hfiles
  by_cases hvalid : Valid c
  · rw [if_pos hvalid] at hc
    rw [if_pos (hsame.1 hvalid)] at hd
    have hrun := run_congr hline hc hd halike.stdout (runWith_congr halike hfiles _)
    rw [hrun]
    exact ⟨rfl, rfl⟩
  · rw [if_neg hvalid] at hc
    rw [if_neg (fun hd => hvalid (hsame.2 hd))] at hd
    obtain ⟨hending, hconsole⟩ := run_of_refused hline hc
    obtain ⟨hending', hconsole'⟩ := run_of_refused hline hd
    rw [hending, hending', hconsole, hconsole', halike.stdout]
    exact ⟨rfl, rfl⟩

def withSettings (text : String) : World where
  files path :=
    if path = Config.defaultPath then .ok (.regular (Bytes.ofAscii text)) else .error .missing
  stdin := []
  stdout := .unlimited

theorem reads_withSettings (text : String) {c : Config}
    (hdocument : Config.ofDocument (Toml.Document.ofText (Bytes.ofAscii text)) = .ok c) :
    Reads (withSettings text).files Config.defaultPath c :=
  ⟨Bytes.ofAscii text, rfl, hdocument⟩

/-- A file with a level that does not exist and a file with a format, under flags that settle both and
run a program. -/
theorem flags_override_file_unknown_level :
    let arguments := ["-json=false", "-log-level", "error", "-e", "+"].map Bytes.ofAscii
    let given : List Given :=
      [.switch .json rfl false, .text .logLevel rfl (Bytes.ofAscii "error"),
        .text .eval rfl (Bytes.ofAscii "+")]
    let world := withSettings "log_level = \"loud\""
    let other := withSettings "output = \"json\""
    let c : Config := { logLevel := Bytes.ofAscii "loud" }
    let d : Config := { output := Format.json.name }
    CommandLine arguments given [] ∧
    Reads world.files Config.defaultPath c ∧ Reads other.files Config.defaultPath d ∧
    AgreeBut given c d ∧ (Valid c ↔ Valid d) ∧
    (run arguments other).ending = (run arguments world).ending ∧
    (run arguments other).stdout = (run arguments world).stdout := by
  intro arguments given world other c d
  have hline : CommandLine arguments given [] :=
    .valued rfl rfl rfl rfl (.spaced rfl rfl rfl (.spaced rfl rfl rfl .nothing))
  have hworld : Reads world.files Config.defaultPath c := reads_withSettings _ rfl
  have hother : Reads other.files Config.defaultPath d := reads_withSettings _ rfl
  have hagree : AgreeBut given c d := by decide
  have hvalid : Valid c ↔ Valid d := by decide
  have hruns := (flags_override_file hline hworld hother hagree).2 hvalid ⟨rfl, rfl, rfl, rfl⟩ nofun
  exact ⟨hline, hworld, hother, hagree, hvalid, hruns⟩

/-- Two pairs of files that differ only in a setting whose flag is given.  Of the first two one is
refused, since its format is unknown, although the flag would replace it.  The other two give the same
configuration, but the command line runs the file itself as well, and what it then writes differs. -/
theorem file_checked_before_flags :
    (let arguments := [Bytes.ofAscii "-json"]
     let given : List Given := [.switch .json rfl true]
     let world := withSettings "output = \"yaml\""
     let other := withSettings "output = \"text\""
     CommandLine arguments given [] ∧
     Reads world.files Config.defaultPath { output := Bytes.ofAscii "yaml" } ∧
     Reads other.files Config.defaultPath {} ∧
     AgreeBut given { output := Bytes.ofAscii "yaml" } {} ∧
     (optionsOf given []).settings world.files =
       .error (.unknownOutput (Bytes.ofAscii "yaml")) ∧
     (optionsOf given []).settings other.files = .ok { output := Format.json.name } ∧
     (run arguments world).ending = .exit 1 ∧ (run arguments other).ending = .exit 0) ∧
    (let arguments := ["-log-level=warn", "accjit.toml"].map Bytes.ofAscii
     let given : List Given := [.text .logLevel rfl (Bytes.ofAscii "warn")]
     let world := withSettings "log_level = \"-\""
     let other := withSettings "log_level = \"\""
     CommandLine arguments given [Config.defaultPath] ∧
     Reads world.files Config.defaultPath { logLevel := Bytes.ofAscii "-" } ∧
     Reads other.files Config.defaultPath { logLevel := [] } ∧
     AgreeBut given { logLevel := Bytes.ofAscii "-" } { logLevel := [] } ∧
     (run arguments world).stdout.output = Bytes.ofAscii "-1\n" ∧
     (run arguments other).stdout.output = Bytes.ofAscii "0\n") := by
  refine ⟨?_, ?_⟩
  · intro arguments given world other
    have hline : CommandLine arguments given [] := .plain rfl rfl rfl .nothing
    exact ⟨hline, reads_withSettings _ rfl, reads_withSettings _ rfl, by decide, rfl, rfl, by decide,
      by decide⟩
  · intro arguments given world other
    have hline : CommandLine arguments given [Config.defaultPath] :=
      .joined rfl rfl rfl (.paths [] rfl)
    exact ⟨hline, reads_withSettings _ rfl, reads_withSettings _ rfl, by decide, by decide,
      by decide⟩

end Accumulator.Proofs.Overriding
