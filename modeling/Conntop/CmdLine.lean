import Mathlib.Data.List.AList

/-!
# `CmdLine`

The parser of the command line. A `KString` is its characters, and a `std::map` is an `AList`: the
loop of `AddShortArg` finds the only argument with a short name, so the order does not matter.

* A pointer to a `CmdLineArg` is its key in `m_args`, which nothing removes.
* `m_config` points into the table, to the name and the configuration of the option.
* Descriptions and the names of value types are only shown, and left out.
-/

namespace Conntop

abbrev KString := List Char

inductive ECmdLineArgValue
  | none
  | optional
  | required
  deriving DecidableEq, Repr

structure CmdLineArgConfig where
  shortName : KString := []
  valueType : ECmdLineArgValue := .none
  deriving DecidableEq, Repr

namespace CmdLineArgConfig

variable (c : CmdLineArgConfig)

def hasShortName : Bool := !c.shortName.isEmpty

def canHaveValue : Bool := c.valueType != .none

def requiresValue : Bool := c.valueType == .required

/-- `hasShortName() && getShortName()[0] == argChar`. -/
def isShort (argChar : Char) : Bool := c.hasShortName && c.shortName.head? == some argChar

end CmdLineArgConfig

/-- A table of options whose short names have one character and differ. -/
structure OptionTable where
  options : AList fun _ : KString => CmdLineArgConfig
  short_length : ∀ o ∈ options.entries, o.2.shortName.length ≤ 1
  short_unique : ∀ o ∈ options.entries, ∀ o' ∈ options.entries,
    o.2.shortName = o'.2.shortName → o.2.hasShortName → o = o'

structure CmdLineArg where
  name : KString
  config : CmdLineArgConfig
  values : List KString := []
  count : ℕ := 0
  deriving DecidableEq, Repr

abbrev ArgMap := AList fun _ : KString => CmdLineArg

structure CmdLine where
  args : ArgMap := ∅
  nonOptionArgs : List KString := []
  deriving DecidableEq

namespace CmdLine

/-! ## The arguments that were given -/

def emplace (name : KString) (config : CmdLineArgConfig) (argMap : ArgMap) : ArgMap :=
  if name ∈ argMap then argMap else argMap.insert name { name, config }

/-- `AddShortArg`, `none` for the null pointer. -/
def addShortArg (t : OptionTable) (argChar : Char) (argMap : ArgMap) : Option (KString × ArgMap) :=
  match argMap.entries.find? (·.2.config.isShort argChar) with
  | some arg => some (arg.1, argMap)
  | none =>
    (t.options.entries.find? (·.2.isShort argChar)).map fun o => (o.1, emplace o.1 o.2 argMap)

def addLongArg (t : OptionTable) (argName : KString) (argMap : ArgMap) :
    Option (KString × ArgMap) :=
  if argName ∈ argMap then some (argName, argMap)
  else (t.options.lookup argName).map fun config => (argName, emplace argName config argMap)

/-- A change through a pointer. -/
def modify (name : KString) (f : CmdLineArg → CmdLineArg) (argMap : ArgMap) : ArgMap :=
  match argMap.lookup name with
  | some arg => argMap.replace name (f arg)
  | none => argMap

def countUp (name : KString) : ArgMap → ArgMap :=
  modify name fun a => { a with count := a.count + 1 }

def addValue (name value : KString) : ArgMap → ArgMap :=
  modify name fun a => { a with values := a.values ++ [value] }

end CmdLine

/-! ## The parser -/

/-- The variables of `parse`. -/
structure ParseState extends CmdLine where
  waitingArg : Option KString := none
  isWaitingArgShort : Bool := false
  deriving DecidableEq

namespace ParseState

open CmdLine

variable (t : OptionTable) (appName : KString) (s : ParseState)

/-- `waitingArg && p(*waitingArg)`. -/
def waits (p : CmdLineArgConfig → Bool) : Bool :=
  s.waitingArg.any fun w => (s.args.lookup w).any fun arg => p arg.config

/-- The characters of a cluster of short options. -/
def parseShort : List Char → ParseState → Except String ParseState
  | [], s => .ok s
  | argChar :: value, s =>
    match addShortArg t argChar s.args with
    | none =>
      .error (String.ofList appName ++ ": invalid option '-" ++ String.singleton argChar ++ "'")
    | some (w, args) =>
      let s : ParseState := { s with args := countUp w args, waitingArg := some w }
      if s.waits (·.canHaveValue) then
        if value.isEmpty then .ok s
        else .ok { s with args := addValue w value s.args, waitingArg := none }
      else parseShort value s

/-- The name and what stands behind the first `=`. -/
def splitValue (arg : KString) : KString × Option KString :=
  (arg.takeWhile (· != '='), (arg.dropWhile (· != '=')).tail?)

/-- An element that starts with `--`, which is left out of `arg`. -/
def parseLong (arg : KString) : Except String ParseState :=
  let (argName, argValue) := splitValue arg
  match addLongArg t argName s.args with
  | none =>
    .error (String.ofList appName ++ ": unrecognized option '--" ++ String.ofList arg ++ "'")
  | some (w, args) =>
    let s : ParseState :=
      { s with args := countUp w args, waitingArg := some w, isWaitingArgShort := false }
    match argValue with
    | none => .ok s
    | some value =>
      if s.waits (·.canHaveValue) then
        .ok { s with args := addValue w value s.args, waitingArg := none }
      else .error (String.ofList appName ++ ": option '--" ++ String.ofList w ++
        "' doesn't allow an argument")

/-- The first loop, with the elements that are left when it ends. -/
def parseLoop (s : ParseState) : List KString → Except String (ParseState × List KString)
  | [] => .ok (s, [])
  | arg :: rest =>
    match arg with
    | '-' :: c :: cs =>
      if s.waits (·.requiresValue) then .ok (s, arg :: rest)
      else if c != '-' then do
        let s ← parseShort t appName (c :: cs) { s with isWaitingArgShort := true }
        parseLoop s rest
      else if cs.isEmpty then .ok (s, rest)
      else do
        let s ← s.parseLong t appName cs
        parseLoop s rest
    | _ =>
      match s.waitingArg with
      | some w =>
        if s.waits (·.canHaveValue) then
          parseLoop { s with args := addValue w arg s.args, waitingArg := none } rest
        else parseLoop { s with nonOptionArgs := s.nonOptionArgs ++ [arg] } rest
      | none => parseLoop { s with nonOptionArgs := s.nonOptionArgs ++ [arg] } rest

/-- What follows the first loop. -/
def finish (s : ParseState) (rest : List KString) : Except String CmdLine :=
  if s.waits (·.requiresValue) then
    let w := (s.waitingArg.bind fun w => s.args.lookup w).getD { name := [], config := {} }
    .error (String.ofList appName ++ ": option '" ++
      (if s.isWaitingArgShort then "-" else "--") ++
      String.ofList (if s.isWaitingArgShort then w.config.shortName else w.name) ++
      "' requires an argument")
  else .ok { s.toCmdLine with nonOptionArgs := s.nonOptionArgs ++ rest }

end ParseState

/-- `CmdLine::parse` of `argv`. -/
def CmdLine.parse (t : OptionTable) : List KString → Except String CmdLine
  | [] => .ok {}
  | appName :: args => do
    let (s, rest) ← ParseState.parseLoop t appName {} args
    s.finish appName rest

end Conntop
