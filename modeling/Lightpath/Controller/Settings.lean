import Lightpath.Form.Record

/-!
# Settings

Every setting has a value of its own and can be given another one by name, as a text. Names are the same in
upper and in lower case, and of two values of one name the later counts.
-/

namespace Lightpath.Controller

open Lightpath.Numeral

/-- The levels at which messages are logged. -/
inductive LogLevel where
  | debug
  | info
  | warning
  | error
  | critical
  deriving DecidableEq, Repr

/-- The name of a level. -/
def LogLevel.name : LogLevel → String
  | .debug => "DEBUG"
  | .info => "INFO"
  | .warning => "WARNING"
  | .error => "ERROR"
  | .critical => "CRITICAL"

/-- The number of a level; a higher one is more severe. -/
def LogLevel.number : LogLevel → Nat
  | .debug => 10
  | .info => 20
  | .warning => 30
  | .error => 40
  | .critical => 50

/-- The levels from which on messages can be logged, with their names. -/
def LogLevel.thresholds : List (String × LogLevel) :=
  [.debug, .info, .warning, .error].map fun l => (l.name, l)

/-- Every level with its name. -/
def LogLevel.names : List (String × LogLevel) :=
  thresholds ++ [(LogLevel.critical.name, .critical)]

/-- The settings of a controller. -/
structure Settings where
  apiHost : String
  apiPort : Int
  apiTitle : String
  apiVersion : String
  controllerId : String
  engineProtocol : String
  engineHost : String
  enginePort : Int
  engineUsername : Option String
  enginePassword : Option String
  enginePath : String
  engineTimeout : Float
  transceiverType : String
  linkStoreHost : String
  linkStorePort : Int
  linkStorePassword : Option String
  deviceScheme : String
  commonPort : Int
  portFront : String
  dataSpace : String
  logLevel : LogLevel
  logFile : Option String
  deriving Repr

namespace Settings

/-- Given values by their names in upper case. -/
def byName (given : List (String × String)) : OrderedMap String Json :=
  OrderedMap.ofPairs (given.map fun (name, value) =>
    (name.map Char.toUpper, Json.str value))

/-- The settings with some given values. -/
def ofGiven (given : List (String × String)) : Form.Checked Settings :=
  let fields : Form.Fields := byName given
  mk <$> fields.orElse "API_HOST" Form.text "0.0.0.0"
    <*> fields.orElse "API_PORT" Form.whole 8085
    <*> fields.orElse "API_TITLE" Form.text "Optical Provisioning Controller"
    <*> fields.orElse "API_VERSION" Form.text "1.0.0"
    <*> fields.orElse "CONTROLLER_ID" Form.text "optical-controller"
    <*> fields.orElse "PCE_PROTOCOL" Form.text "http"
    <*> fields.orElse "PCE_HOST" Form.text "127.0.0.1"
    <*> fields.orElse "PCE_PORT" Form.whole 8080
    <*> fields.orElse "PCE_USERNAME" (Form.orNull Form.text) none
    <*> fields.orElse "PCE_PASSWORD" (Form.orNull Form.text) none
    <*> fields.orElse "PCE_PATH" Form.text "/api/v1/path-computation"
    <*> fields.orElse "PCE_TIMEOUT_SEC" Form.real 30.0
    <*> fields.orElse "PCE_TRX_TYPE" Form.text "Cassini"
    <*> fields.orElse "LINKDB_HOST" Form.text "link-db-redis"
    <*> fields.orElse "LINKDB_PORT" Form.whole 6379
    <*> fields.orElse "LINKDB_PASSWORD" (Form.orNull Form.text) none
    <*> fields.orElse "DEVICE_SCHEME" Form.text "netconf:"
    <*> fields.orElse "ROADM_COMMON_PORT" Form.whole 100
    <*> fields.orElse "LINE_DEGREE_PORT_PREFIX" Form.text "E"
    <*> fields.orElse "ROADM_YANG_NAMESPACE" Form.text
      "http://czechlight.cesnet.cz/yang/czechlight-roadm-device"
    <*> fields.orElse "LOG_LEVEL" (Form.choice LogLevel.thresholds) .info
    <*> fields.orElse "LOG_FILE" (Form.orNull Form.text) none

/-- The record of the settings. -/
def toJson (s : Settings) : Json :=
  .obj [("API_HOST", .str s.apiHost), ("API_PORT", .int s.apiPort), ("API_TITLE", .str s.apiTitle),
    ("API_VERSION", .str s.apiVersion), ("CONTROLLER_ID", .str s.controllerId),
    ("PCE_PROTOCOL", .str s.engineProtocol), ("PCE_HOST", .str s.engineHost),
    ("PCE_PORT", .int s.enginePort), ("PCE_USERNAME", .ofOption s.engineUsername),
    ("PCE_PASSWORD", .ofOption s.enginePassword), ("PCE_PATH", .str s.enginePath),
    ("PCE_TIMEOUT_SEC", .float s.engineTimeout), ("PCE_TRX_TYPE", .str s.transceiverType),
    ("LINKDB_HOST", .str s.linkStoreHost), ("LINKDB_PORT", .int s.linkStorePort),
    ("LINKDB_PASSWORD", .ofOption s.linkStorePassword), ("DEVICE_SCHEME", .str s.deviceScheme),
    ("ROADM_COMMON_PORT", .int s.commonPort), ("LINE_DEGREE_PORT_PREFIX", .str s.portFront),
    ("ROADM_YANG_NAMESPACE", .str s.dataSpace), ("LOG_LEVEL", .str s.logLevel.name),
    ("LOG_FILE", .ofOption s.logFile)]

end Settings

end Lightpath.Controller
