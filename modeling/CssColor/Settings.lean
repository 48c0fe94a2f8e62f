import CssColor.Text.Blank
import CssColor.Text.Case
import CssColor.Validation.Decode

/-!
# Settings

The settings of the server, taken from four environment variables. Settings are kept once they were
built, until they are cleared; a failure to build them is not kept.
-/

namespace CssColor

/-- The settings of the server. -/
structure Settings where
  /-- The address to listen on. -/
  host : String := "0.0.0.0"
  /-- The port to listen on. -/
  port : Int := 8973
  /-- The least severe level of messages to log. -/
  logLevel : String := "INFO"
  /-- Whether tools can be reached by agents. -/
  mcp : Bool := true
  deriving DecidableEq, Repr

/-- An environment variable of the server. -/
inductive Variable where
  /-- Gives the address to listen on. -/
  | host
  /-- Gives the port to listen on. -/
  | port
  /-- Gives the level of logging. -/
  | logLevel
  /-- Switches the reach by agents. -/
  | mcp
  deriving DecidableEq, Repr

namespace Variable

/-- The name of a variable in the environment. -/
def name : Variable → String
  | host => "COLOR_PICKER_HOST"
  | port => "COLOR_PICKER_PORT"
  | logLevel => "COLOR_PICKER_LOG_LEVEL"
  | mcp => "COLOR_PICKER_MCP"

/-- The variable of the given name. -/
def ofName? (text : String) : Option Variable :=
  [host, port, logLevel, mcp].find? (·.name == text)

end Variable

/-- The texts of the variables that are set. -/
def Environment := Variable → Option String

namespace Environment

/-- No variable is set. -/
def empty : Environment := fun _ => none

/-- The environment with one variable given a text, or unset. -/
def update (environment : Environment) (key : Variable) (text : Option String) :
    Environment :=
  fun other => if other = key then text else environment other

@[simp] theorem update_same (environment : Environment) (key : Variable)
    (text : Option String) : environment.update key text key = text := by
  simp [update]

/-- An update leaves the other variables alone. -/
theorem update_of_ne {key other : Variable} (h : other ≠ key) (environment : Environment)
    (text : Option String) : environment.update key text other = environment other := by
  simp [update, h]

end Environment

namespace Settings

/-- Whether the text of a switch turns it on. -/
def isOn (text : String) : Bool :=
  !(["0", "false", "no", "off", ""].contains (Text.lower (Text.strip text)))

/-- The port that a text gives, between 1 and 65535. -/
def readPort (text : String) : Checked Int :=
  (((Decode.integerText text).andThen (Decode.atLeast 1)).andThen (Decode.atMost 65535)).below
    (.field "port")

/-- The settings of an environment, with defaults for variables that are not set. -/
def build (environment : Environment) : Checked Settings :=
  let defaults : Settings := {}
  let withPort (port : Int) : Settings :=
    { host := (environment .host).getD defaults.host
      port
      logLevel := ((environment .logLevel).map Text.upper).getD defaults.logLevel
      mcp := ((environment .mcp).map isOn).getD defaults.mcp }
  match environment .port with
  | some text => withPort <$> readPort text
  | none => .valid (withPort defaults.port)

/-- The environment and the settings that are kept. -/
structure Store where
  /-- The variables that are set. -/
  environment : Environment := Environment.empty
  /-- The settings that were built since the last clearing. -/
  kept : Option Settings := none

/-- A step of a run. -/
inductive Step where
  /-- Sets a variable. -/
  | set (key : Variable) (text : String)
  /-- Unsets a variable. -/
  | unset (key : Variable)
  /-- Forgets the settings that are kept. -/
  | clear
  /-- Asks for the settings. -/
  | get
  deriving DecidableEq, Repr

namespace Store

/-- The settings that are kept, else those of the current environment, which are then kept. -/
def get (store : Store) : Store × Checked Settings :=
  match store.kept with
  | some settings => (store, .valid settings)
  | none =>
    match build store.environment with
    | .valid settings => ({ store with kept := some settings }, .valid settings)
    | .invalid issues => (store, .invalid issues)

/-- One step: the new state, and the settings when the step asks for them. -/
def step (store : Store) : Step → Store × Option (Checked Settings)
  | .set key text =>
    ({ store with environment := store.environment.update key (some text) }, none)
  | .unset key =>
    ({ store with environment := store.environment.update key none }, none)
  | .clear => ({ store with kept := none }, none)
  | .get =>
    let (store, settings) := store.get
    (store, some settings)

/-- The answers to all steps in order. -/
def run (store : Store) : List Step → List (Option (Checked Settings))
  | [] => []
  | next :: rest =>
    let (state, answer) := store.step next
    answer :: run state rest

end Store

end Settings

end CssColor
