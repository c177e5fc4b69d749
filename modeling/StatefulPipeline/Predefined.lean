import StatefulPipeline.Registry

/-! The predefined automata: a firewall that follows the phases of a TCP connection, and a load
balancer that alternates between two ports. -/

namespace StatefulPipeline

/-! The TCP flags, as bits of a trigger. -/

namespace TcpFlag

def fin : Trigger := 1
def syn : Trigger := 2
def rst : Trigger := 4
def psh : Trigger := 8
def ack : Trigger := 16

def all : List Trigger := [fin, syn, rst, psh, ack]

end TcpFlag

/-! The phases of a TCP connection. -/

namespace TcpPhase

def init : StateId := 0
def syn : StateId := 1
def synAck : StateId := 2
def established : StateId := 3
def firstFin : StateId := 4
def halfStop : StateId := 5
def secondFin : StateId := 6
def stop : StateId := 7

def all : List StateId := [init, syn, synAck, established, firstFin, halfStop, secondFin, stop]

end TcpPhase

namespace Firewall

def target : Target := ⟨"sfw", 1, Name.lookupByTcpFlag⟩

def edge (trigger : Trigger) (current next : StateId) : Edit :=
  .addTransition ⟨target.id, trigger, current, next⟩

/-- The handshake allows a repeated SYN, and an established connection stays so on ACK, RST,
RST with ACK and PSH with ACK. -/
def edits : List Edit :=
  [.register target,
    edge TcpFlag.syn TcpPhase.init TcpPhase.syn,
    edge TcpFlag.syn TcpPhase.syn TcpPhase.syn,
    edge (TcpFlag.syn ||| TcpFlag.ack) TcpPhase.syn TcpPhase.synAck,
    edge TcpFlag.ack TcpPhase.synAck TcpPhase.established,
    edge TcpFlag.ack TcpPhase.established TcpPhase.established,
    edge TcpFlag.rst TcpPhase.established TcpPhase.established,
    edge (TcpFlag.rst ||| TcpFlag.ack) TcpPhase.established TcpPhase.established,
    edge (TcpFlag.psh ||| TcpFlag.ack) TcpPhase.established TcpPhase.established,
    edge TcpFlag.fin TcpPhase.established TcpPhase.firstFin,
    edge (TcpFlag.fin ||| TcpFlag.ack) TcpPhase.firstFin TcpPhase.halfStop,
    edge TcpFlag.fin TcpPhase.halfStop TcpPhase.secondFin,
    edge (TcpFlag.fin ||| TcpFlag.ack) TcpPhase.secondFin TcpPhase.stop,
    .bind target.id TcpPhase.init .drop]

end Firewall

namespace Balancer

def target : Target := ⟨"slb", 2, Name.lookupByNothing⟩

/-- The trigger that every packet carries. -/
def packet : Trigger := 0

def edge (current next : StateId) : Edit := .addTransition ⟨target.id, packet, current, next⟩

def edits : List Edit :=
  [.register target,
    edge 0 1,
    edge 1 2,
    edge 2 1,
    .bind target.id 1 (.outputPort 2),
    .bind target.id 2 (.outputPort 3),
    .bind target.id 0 .drop]

end Balancer

/-- A change to a registry as its users ask for it: one edit, or a predefined automaton. -/
inductive RegistryRequest where
  | edit (edit : Edit)
  | installFirewall
  | installBalancer
deriving DecidableEq, Repr

namespace Registry

def installFirewall (r : Registry) : Registry × EditReply := r.editAll Firewall.edits

def installBalancer (r : Registry) : Registry × EditReply := r.editAll Balancer.edits

def handle (r : Registry) : RegistryRequest → Registry × EditReply
  | .edit e => r.edit e
  | .installFirewall => r.installFirewall
  | .installBalancer => r.installBalancer

def run (r : Registry) : List RegistryRequest → Registry × List EditReply
  | [] => (r, [])
  | q :: qs =>
    let (r₁, reply) := r.handle q
    let (r₂, replies) := r₁.run qs
    (r₂, reply :: replies)

/-- The registry that a list of requests makes out of another, or the first refusal. -/
def prepare (r : Registry) : List RegistryRequest → Except RegistryError Registry
  | [] => .ok r
  | q :: qs =>
    match r.handle q with
    | (_, .refused e) => .error e
    | (r', _) => r'.prepare qs

/-- The firewall and the load balancer. -/
def defaults : Registry := empty.installFirewall.1.installBalancer.1

end Registry

end StatefulPipeline
