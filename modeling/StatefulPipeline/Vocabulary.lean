/-! Identifiers and names that the pipeline program and its controller share. The identifier types
bound what can be said; the widths that a value is encoded into come from the schema. -/

namespace StatefulPipeline

/-- One class of stateful network function. -/
abbrev TargetId := UInt16

/-- A slot of per-flow state, partitioned by target. -/
abbrev RegisterId := UInt32

abbrev StateId := UInt8

/-- What makes an automaton move, such as a combination of TCP flags. -/
abbrev Trigger := UInt16

abbrev Port := UInt64

/-- A declared field or parameter width, in bits. -/
abbrev Width := UInt32

namespace Name

def stateMetadata : String := "state_metadata"

def targetId : String := "target_id"
def registerId : String := "register_id"
def curState : String := "cur_state"
def nextState : String := "next_state"
def trigger : String := "trigger"

def drop : String := "_drop"
def alert : String := "alert"
def sendToCpu : String := "send_to_cpu"
def forward : String := "forward"
def stateTransfer : String := "state_transfer"

def port : String := "port"

def lookupByTcpFlag : String := "get_state_with_tcp_flag"
def lookupByNothing : String := "get_state_with_nothing"

def lookupActions : List String :=
  [lookupByTcpFlag, "get_state_with_ip_id", "get_state_with_ip_tos", lookupByNothing,
    "get_state_with_tcp_src_port", "get_state_with_tcp_dst_port"]

end Name

end StatefulPipeline
