import StatefulPipeline.Address
import StatefulPipeline.CommandLine.Arguments
import StatefulPipeline.CommandLine.Output
import StatefulPipeline.ConfigText
import StatefulPipeline.Directory
import StatefulPipeline.Predefined

/-! The command line program. It sets up a controller over devices in memory, carries out one
command, and says how it went as text or JSON. -/

namespace StatefulPipeline
namespace CommandLine

def programName : String := "sfp4ctl"
def programVersion : String := "0.1.0"

def fallbackDevice : DeviceId := "device:bmv2:s1#1"

/-- The device that is asked for, or else the configured default. -/
def preferredDevice? (config : Config) (device : Option String) : Option DeviceId :=
  match device with
  | some d => some d
  | none => config.devices.bind DeviceConfig.default

/-- The configured devices and the preferred one, or the fallback if there is none. -/
def reachableDevices (config : Config) (device : Option String) : List DeviceId :=
  let available := (config.devices.map DeviceConfig.available).getD []
  let devices :=
    match preferredDevice? config device with
    | some d => if d ∈ available then available else available ++ [d]
    | none => available
  if devices = [] then [fallbackDevice] else devices

def controllerOf (config : Config) (schema : Schema) (device : Option String) : Controller :=
  let devices := reachableDevices config device
  let c := Controller.new schema Registry.defaults devices
  match preferredDevice? config device with
  | some d => c.withDefaultDevice d
  | none => devices.foldl Controller.deviceInitialized c

def start (json : Bool) (c : Controller) (service : String) : Output :=
  statusOutput json "start" service (c.startStatus service).2

def stop (json : Bool) (c : Controller) (service : String) : Output :=
  let status := (c.stopStatus service).2
  if json then .printed status.code ""
  else .ofLines status.code [service ++ ": stopped (installed rules left in place)"]

def addressCriteria (name : String) : Option String → Except String (List Criterion)
  | none => .ok []
  | some text =>
    match Address.read? text with
    | some n => .ok [.field ⟨"ipv4", name⟩ n]
    | none => .error text

def numberCriteria (scope name : String) : Option Nat → List Criterion
  | none => []
  | some n => [.field ⟨scope, name⟩ n]

/-- The selector of a flow, or the first address that cannot be read. -/
def Flow.selector (flow : Flow) : Except String Selector :=
  match addressCriteria "dstAddr" flow.ipDst with
  | .error text => .error text
  | .ok dst =>
    match addressCriteria "srcAddr" flow.ipSrc with
    | .error text => .error text
    | .ok src =>
      .ok ⟨dst ++ src ++ numberCriteria "ipv4" "protocol" flow.ipProto ++
        numberCriteria "tcp" "srcPort" flow.tcpSrc ++ numberCriteria "tcp" "dstPort" flow.tcpDst⟩

def bind (json : Bool) (c : Controller) (service : String) (flow : Flow) (output : Option String)
    (register : Option RegisterId) : Output :=
  match flow.selector with
  | .error text =>
    .failed ("invalid IPv4 address: " ++ text ++
      "\n\nCaused by:\n    invalid IPv4 address syntax")
  | .ok selector =>
    statusOutput json "bind" service (c.bindStatus ⟨service, register, selector, output⟩).2

def inspect (json : Bool) (c : Controller) (service : String) : Output :=
  match c.registry.targetNamed? service with
  | none => ⟨.failure, "", "unknown service: " ++ service ++ "\n"⟩
  | some target =>
    match c.overview target with
    | .error e => .failed e.message
    | .ok overview => overviewOutput json overview

def schema (json : Bool) (config : Config) (s : Schema) : Output :=
  if json then .ofJson .ok (schemaJson config s) else .printed .ok config.toToml

def execute (config : Config) (device : Option String) (json : Bool) (command : Command) :
    Output :=
  match config.toSchema with
  | .error e => .failed e.message
  | .ok s =>
    let c := controllerOf config s device
    match command with
    | .start service => start json c service
    | .stop service => stop json c service
    | .bind service flow output register => bind json c service flow output register
    | .inspect service => inspect json c service
    | .schema => schema json config s

/-- The configuration of an invocation: that of its file, whose bytes are given if it can be read,
or the built-in one. -/
def Invocation.load (inv : Invocation) (file : Option ByteArray) : Except String Config :=
  match inv.config with
  | none => .ok .builtin
  | some path =>
    match file with
    | none => .error path
    | some bytes =>
      match Config.ofBytes bytes with
      | .ok config => .ok config
      | .error _ => .error path

def Invocation.run (inv : Invocation) (file : Option ByteArray) : Output :=
  match inv.load file with
  | .error path => .failed ("loading " ++ path)
  | .ok config => execute config inv.device inv.json inv.command

/-- The name of the program, and of the command if there is one, with the version. -/
def versionOutput : Option Verb → Output
  | none => .ofLines .ok [programName ++ " " ++ programVersion]
  | some verb => .ofLines .ok [programName ++ "-" ++ verb.name ++ " " ++ programVersion]

def Request.file? : Request → Option String
  | .run inv => inv.config
  | _ => none

/-- Answers a request, given the file that it needs. A command line that asks for nothing has no
output. -/
def Request.answer (request : Request) (file : Option ByteArray) : Option Output :=
  match request with
  | .usage => none
  | .version verb => some (versionOutput verb)
  | .run inv => some (inv.run file)

def runIn (dir : Directory) (args : List String) : Option Output :=
  let request := Request.read args
  request.answer (request.file?.bind dir.read?)

end CommandLine
end StatefulPipeline
