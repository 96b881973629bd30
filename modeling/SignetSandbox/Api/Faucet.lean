import SignetSandbox.Api.Main
import SignetSandbox.Bitcoind.Faucet

/-!
# The platform and its faucets

`environment.faucet` reaches the faucet of the environment through the proxy of the cluster, and
the faucet reaches the wallet of the node. What the nodes are asked to pay is kept beside the
world.
-/

namespace SignetSandbox

open Interleave

/-- What a faucet posted to its node, for which request of which thread, and the reply. -/
structure Spend (ι : Type) where
  thread : ι
  uri : String
  body : String
  dest : Bitcoind.Client
  posted : Wire.Value
  reply : Except String Wire.Value

/-- The faucets that there are, each behind the path that leads to it. -/
structure Faucets where
  texts : Faucet.Texts
  behind : String → Option Faucet.FaucetState

namespace Faucets

variable (self : Faucets) (crates : Crates) {ι : Type}

/-- A node that replies so. -/
def node (reply : Except String Wire.Value) : (op : Bitcoind.Op) → op.Reply
  | .post _ _ => reply
  | .tick | .resetAfter _ => ()

/-- What the faucet posts while it serves the request. -/
def posts (faucet : Faucet.FaucetState) (i : ι) (uri body : String)
    (reply : Except String Wire.Value) : List (Spend ι) :=
  ((Faucet.postFund self.texts crates faucet (utf8 body)).trace (node reply)).filterMap fun op =>
    match op with
    | .post dest posted => some ⟨i, uri, body, dest, posted, reply⟩
    | _ => none

/-- What comes back through the proxy: the body, under a status that is no error. -/
def response (faucet : Faucet.FaucetState) (body : String) (reply : Except String Wire.Value) :
    Except KubeError String :=
  let r := (Faucet.postFund self.texts crates faucet (utf8 body)).answered (node reply)
  if r.status < 400 then .ok r.body else .error (.api r.status)

/-- A request to a faucet, under a fault that may come before or after its effect. -/
def requestText (c : Choice) (i : ι) (uri body : String) (reply : Except String Wire.Value)
    (spends : List (Spend ι)) : List (Spend ι) × Except KubeError String :=
  match self.behind uri with
  | none => (spends, .error (c.kubeFault.elim (.api 404) (·.error)))
  | some faucet =>
    match c.kubeFault with
    | none => (self.posts crates faucet i uri body reply ++ spends,
        self.response crates faucet body reply)
    | some f =>
      (if f.applied then self.posts crates faucet i uri body reply ++ spends else spends,
        .error f.error)

def exec (i : ι) (c : Choice × Except String Wire.Value) :
    (op : Op) → World × List (Spend ι) → (World × List (Spend ι)) × op.Reply
  | .kube (.requestText uri body), s =>
    let r := self.requestText crates c.1 i uri body c.2 s.2
    ((s.1, r.1), r.2)
  | op, s =>
    let r := World.exec c.1 op s.1
    ((r.1, s.2), r.2)

/-- The platform, whose faucets are these. -/
def platform (ι : Type) :
    System ι Op Op.Reply (Choice × Except String Wire.Value) (World × List (Spend ι)) where
  exec := self.exec crates
  adm _ c op s := c.1.Possible op s.1
  env s s' := (SignetSandbox.platform ι).env s.1 s'.1 ∧ s'.2 = s.2

end Faucets

end SignetSandbox
