import Accumulator.Cli.Run
/-!
# How a command line reads

The arguments of a command line are some flags, each with its value, and the paths behind them.
`CommandLine` is the grammar; what the options say is then a matter of the flags alone, in their
order, and of several values of one flag the last one counts.
-/

namespace Accumulator.Proofs.CommandLines

open Cli Cli.Options

/-! ## Grammar -/

inductive Given where
  | text (f : Flag) (hkind : f.takesText = true) (value : Bytes)
  | switch (f : Flag) (hkind : f.takesText = false) (value : Bool)
  deriving DecidableEq, Repr

namespace Given

def flag : Given → Flag
  | text f _ _ => f
  | switch f _ _ => f

def apply (o : Options) : Given → Options
  | text f _ value => o.setText value f
  | switch f _ value => o.setSwitch value f

def text? (f : Flag) : Given → Option Bytes
  | text g _ value => if g = f then some value else none
  | switch _ _ _ => none

end Given

/-- How arguments read: the flags that they give, and the paths behind the flags. -/
inductive CommandLine : List Bytes → List Given → List Bytes → Prop where
  | nothing : CommandLine [] [] []
  | paths {argument : Bytes} (rest : List Bytes) (hread : classify argument = .path) :
      CommandLine (argument :: rest) [] (argument :: rest)
  | finished {argument : Bytes} (rest : List Bytes) (hread : classify argument = .finished) :
      CommandLine (argument :: rest) [] rest
  | joined {argument name text : Bytes} {f : Flag} {rest paths : List Bytes} {given : List Given}
      (hread : classify argument = .flag name (some text)) (hname : Flag.ofName? name = some f)
      (hkind : f.takesText = true) (hrest : CommandLine rest given paths) :
      CommandLine (argument :: rest) (.text f hkind text :: given) paths
  | spaced {argument name text : Bytes} {f : Flag} {rest paths : List Bytes} {given : List Given}
      (hread : classify argument = .flag name none) (hname : Flag.ofName? name = some f)
      (hkind : f.takesText = true) (hrest : CommandLine rest given paths) :
      CommandLine (argument :: text :: rest) (.text f hkind text :: given) paths
  | plain {argument name : Bytes} {f : Flag} {rest paths : List Bytes} {given : List Given}
      (hread : classify argument = .flag name none) (hname : Flag.ofName? name = some f)
      (hkind : f.takesText = false) (hrest : CommandLine rest given paths) :
      CommandLine (argument :: rest) (.switch f hkind true :: given) paths
  | valued {argument name text : Bytes} {f : Flag} {value : Bool} {rest paths : List Bytes}
      {given : List Given} (hread : classify argument = .flag name (some text))
      (hname : Flag.ofName? name = some f) (hkind : f.takesText = false)
      (hvalue : truthValue? text = some value) (hrest : CommandLine rest given paths) :
      CommandLine (argument :: rest) (.switch f hkind value :: given) paths

def optionsFrom (o : Options) (given : List Given) (paths : List Bytes) : Options :=
  { given.foldl Given.apply o with paths }

def optionsOf (given : List Given) (paths : List Bytes) : Options :=
  optionsFrom {} given paths

theorem paths_apply (o : Options) (g : Given) : (g.apply o).paths = o.paths := by
  cases g with
  | text f hkind value => cases f <;> rfl
  | switch f hkind value => cases f <;> rfl

theorem optionsFrom_nil {o : Options} (hpaths : o.paths = []) : optionsFrom o [] [] = o := by
  unfold optionsFrom
  rw [List.foldl_nil, ← hpaths]

theorem parseFrom_of_commandLine {arguments paths : List Bytes} {given : List Given}
    (hline : CommandLine arguments given paths) {o : Options} (hpaths : o.paths = []) :
    parseFrom o arguments = .ok (optionsFrom o given paths) := by
  induction hline generalizing o with
  | nothing => rw [parseFrom, optionsFrom_nil hpaths]
  | paths rest hread =>
      rw [parseFrom, hread]
      rfl
  | finished rest hread =>
      rw [parseFrom, hread]
      rfl
  | joined hread hname hkind _ ih =>
      simp only [parseFrom, hread, hname, hkind, if_true]
      exact ih ((paths_apply o (.text _ hkind _)).trans hpaths)
  | spaced hread hname hkind _ ih =>
      simp only [parseFrom, hread, hname, hkind, if_true]
      exact ih ((paths_apply o (.text _ hkind _)).trans hpaths)
  | plain hread hname hkind _ ih =>
      simp only [parseFrom, hread, hname, hkind]
      exact ih ((paths_apply o (.switch _ hkind _)).trans hpaths)
  | valued hread hname hkind hvalue _ ih =>
      simp only [parseFrom, hread, hname, hkind, hvalue]
      exact ih ((paths_apply o (.switch _ hkind _)).trans hpaths)

theorem exists_commandLine {arguments : List Bytes} {o options : Options} (hpaths : o.paths = [])
    (hparse : parseFrom o arguments = .ok options) :
    ∃ given paths, CommandLine arguments given paths ∧ options = optionsFrom o given paths := by
  fun_induction parseFrom o arguments with
  | case1 o =>
      cases hparse
      exact ⟨[], [], .nothing, (optionsFrom_nil hpaths).symm⟩
  | case2 o argument rest hread =>
      cases hparse
      exact ⟨[], argument :: rest, .paths rest hread, rfl⟩
  | case3 o argument rest hread =>
      cases hparse
      exact ⟨[], rest, .finished rest hread, rfl⟩
  | case4 => cases hparse
  | case5 => cases hparse
  | case6 => cases hparse
  | case7 o argument name f hname hkind text rest hread ih =>
      obtain ⟨given, paths, hrest, hoptions⟩ :=
        ih ((paths_apply o (.text f hkind text)).trans hpaths) hparse
      exact ⟨.text f hkind text :: given, paths, .joined hread hname hkind hrest, hoptions⟩
  | case8 o argument name f hname hkind text rest hread ih =>
      obtain ⟨given, paths, hrest, hoptions⟩ :=
        ih ((paths_apply o (.text f hkind text)).trans hpaths) hparse
      exact ⟨.text f hkind text :: given, paths, .spaced hread hname hkind hrest, hoptions⟩
  | case9 => cases hparse
  | case10 o argument rest name f hname hkind hread ih =>
      have hswitch : f.takesText = false := by simpa using hkind
      obtain ⟨given, paths, hrest, hoptions⟩ :=
        ih ((paths_apply o (.switch f hswitch true)).trans hpaths) hparse
      exact ⟨.switch f hswitch true :: given, paths, .plain hread hname hswitch hrest, hoptions⟩
  | case11 o argument rest name f hname hkind text value hvalue hread ih =>
      have hswitch : f.takesText = false := by simpa using hkind
      obtain ⟨given, paths, hrest, hoptions⟩ :=
        ih ((paths_apply o (.switch f hswitch value)).trans hpaths) hparse
      exact ⟨.switch f hswitch value :: given, paths, .valued hread hname hswitch hvalue hrest,
        hoptions⟩
  | case12 => cases hparse

/-- Exactly the command lines of the grammar are understood. -/
theorem parse_eq_ok_iff (arguments : List Bytes) (o : Options) :
    parse arguments = .ok o ↔
      ∃ given paths, CommandLine arguments given paths ∧ o = optionsOf given paths := by
  constructor
  · intro hparse
    exact exists_commandLine rfl hparse
  · rintro ⟨given, paths, hline, ho⟩
    rw [ho]
    exact parseFrom_of_commandLine hline rfl

theorem CommandLine.parse_eq {arguments paths : List Bytes} {given : List Given}
    (hline : CommandLine arguments given paths) : parse arguments = .ok (optionsOf given paths) :=
  (parse_eq_ok_iff arguments _).2 ⟨given, paths, hline, rfl⟩

/-! ## What the flags say -/

/-- The text that a flag is given.  Of several the last one counts. -/
def textOf (f : Flag) (given : List Given) : Option Bytes :=
  given.reverse.findSome? (Given.text? f)

theorem textOf_cons (f : Flag) (g : Given) (given : List Given) :
    textOf f (g :: given) = (textOf f given).or (g.text? f) := by
  unfold textOf
  rw [List.reverse_cons, List.findSome?_append]
  cases h : g.text? f <;> simp [h]

theorem eval_apply (o : Options) (g : Given) : (g.apply o).eval = (g.text? .eval).getD o.eval := by
  cases g with
  | text f hkind value => cases f <;> rfl
  | switch f hkind value => cases f <;> rfl

theorem eval_foldl (o : Options) (given : List Given) :
    (given.foldl Given.apply o).eval = (textOf .eval given).getD o.eval := by
  induction given generalizing o with
  | nil => rfl
  | cons g given ih =>
      rw [List.foldl_cons, ih, eval_apply, textOf_cons]
      cases textOf .eval given <;> rfl

theorem eval_optionsOf (given : List Given) (paths : List Bytes) :
    (optionsOf given paths).eval = (textOf .eval given).getD [] :=
  eval_foldl {} given

theorem foldl_filter_eval (o : Options) (program : Bytes) (given : List Given) :
    (given.filter (·.flag ≠ .eval)).foldl Given.apply { o with eval := program } =
      { given.foldl Given.apply o with eval := program } := by
  induction given generalizing o with
  | nil => rfl
  | cons g given ih =>
      by_cases hflag : g.flag = .eval
      · have happly : { g.apply o with eval := program } = { o with eval := program } := by
          cases g with
          | text f hkind value =>
              cases hflag
              rfl
          | switch f hkind value =>
              cases hflag
              cases hkind
        rw [List.filter_cons_of_neg (by simpa using hflag), List.foldl_cons, ← ih (g.apply o),
          happly]
      · have happly : g.apply { o with eval := program } = { g.apply o with eval := program } := by
          cases g with
          | text f hkind value =>
              cases f with
              | eval => exact absurd rfl hflag
              | _ => rfl
          | switch f hkind value => cases f <;> rfl
        rw [List.filter_cons_of_pos (by simpa using hflag), List.foldl_cons, List.foldl_cons, happly,
          ih]

/-! ## What becomes of a command line -/

def configFile (o : Options) : Bytes :=
  if o.config = [] then Config.defaultPath else o.config

theorem load_congr {files others : FileSystem} {path : Bytes} (hsame : files path = others path) :
    Config.load files path = Config.load others path := by
  unfold Config.load Config.content
  rw [hsame]

theorem settings_congr {o : Options} {files others : FileSystem}
    (hsame : files (configFile o) = others (configFile o)) :
    o.settings files = o.settings others := by
  unfold configFile at hsame
  unfold settings Config.loadOptional
  by_cases hnone : o.config = []
  · rw [if_pos hnone] at hsame
    rw [if_pos hnone, if_pos hnone, load_congr hsame]
  · rw [if_neg hnone] at hsame
    rw [if_neg hnone, if_neg hnone, load_congr hsame]

theorem loopOver_congr {world other : World} (hstdout : other.stdout = world.stdout)
    (hhost : other.host = world.host) (hencoder : other.encoder = world.encoder) (c : Config)
    (interactive : Bool) (reads : List Read) :
    loopOver c other interactive reads = loopOver c world interactive reads := by
  unfold loopOver engineOf replConfigOf
  rw [hstdout, hhost, hencoder]

theorem run_of_commandLine {arguments paths : List Bytes} {given : List Given} {world : World}
    {c : Config} {level : Log.Level} (hline : CommandLine arguments given paths)
    (hsettings : (optionsOf given paths).settings world.files = .ok c)
    (hlevel : Log.Level.ofName? c.logLevel = some level) :
    run arguments world =
      { runWith (optionsOf given paths) c world with
        log := Log.sample (Log.atLevel level (runWith (optionsOf given paths) c world).log) } := by
  have hprepare : prepare arguments world.files = .ok ⟨optionsOf given paths, c, level⟩ := by
    simp only [prepare, hline.parse_eq, hsettings, hlevel]
  rw [run, hprepare]

end Accumulator.Proofs.CommandLines
