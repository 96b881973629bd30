import SignetSandbox.World

/-!
# TLS material of a lightning instance

A small CA and a leaf that is no CA, so that strict clients can pin the CA. The
leaf answers to the in-cluster names, to loopback and to the public host.
-/

namespace SignetSandbox

open Interleave

/-- Why an orchestrator operation failed. -/
inductive OrchestrateError
  | kube (e : KubeError)
  | manifestKind (kind : String)
  | faucet (message : String)
  | badChallenge (challenge : String)
  | exec (message : String)
  | tls (message : String)
deriving DecidableEq

/-- An orchestrator operation: a thread that may fail. -/
abbrev Orch := ExceptT OrchestrateError Api

namespace Orch

/-- One cluster call; its error is passed on. -/
def kube (c : Call) : Orch c.Result :=
  ExceptT.mk (do
    let r ← perform (.kube c)
    return r.mapError .kube)

/-- A result that needs no operation. -/
def liftExcept {α : Type} (r : Except OrchestrateError α) : Orch α := ExceptT.mk (pure r)

def when (c : Bool) (x : Orch Unit) : Orch Unit := if c then x else pure ()

end Orch

/-- PEM material for one LND instance. -/
structure InstanceTls where
  caPem : String
  chainPem : String
  keyPem : String

/-- A DNS name is an IA5 string. -/
def dnsName (name : String) : Except String SanType :=
  if name.toList.all fun c => c.toNat < 128 then .ok (.dnsName name) else .error "InvalidAsn1String"

def subjectAltNames (inst ns publicHost : String) : Except String (List SanType) := do
  let localhost ← dnsName "localhost"
  let short ← dnsName s!"lnd-{inst}"
  let svc ← dnsName s!"lnd-{inst}.{ns}.svc"
  let cluster ← dnsName s!"lnd-{inst}.{ns}.svc.cluster.local"
  let pod ← dnsName s!"lnd-{inst}-0.lnd-{inst}.{ns}.svc.cluster.local"
  let sans := [localhost, .ipAddress (.v4 [127, 0, 0, 1]), short, svc, cluster, pod]
  match IpAddr.parse publicHost with
  | some ip => return sans ++ [.ipAddress ip]
  | none =>
    if publicHost ≠ "" then do
      let host ← dnsName publicHost
      return sans ++ [host]
    else return sans

def caParams : CertificateParams where
  commonName := "signet lnd ca"
  subjectAltNames := []
  isCa := .constrained 0
  keyUsages := [.keyCertSign, .crlSign]
  extendedKeyUsages := []

def leafParams (inst : String) (sans : List SanType) : CertificateParams where
  commonName := s!"lnd-{inst}"
  subjectAltNames := sans
  isCa := .explicitNoCa
  keyUsages := [.digitalSignature, .keyEncipherment]
  extendedKeyUsages := [.serverAuth, .clientAuth]

def generateKeyPair : Orch KeyPair :=
  ExceptT.mk (do
    let r ← perform .generateKeyPair
    return r.mapError .tls)

def generateInstanceTls (crates : Crates) (inst ns publicHost : String) : Orch InstanceTls := do
  let sans ← Orch.liftExcept ((subjectAltNames inst ns publicHost).mapError .tls)
  let caKey ← generateKeyPair
  let ca ← Orch.liftExcept ((crates.selfSigned caParams caKey).mapError .tls)
  let leafKey ← generateKeyPair
  let leaf ← Orch.liftExcept
    ((crates.signedBy (leafParams inst sans) leafKey ca caKey).mapError .tls)
  return { caPem := ca.pem, chainPem := leaf.pem ++ ca.pem, keyPem := leafKey.pem }

end SignetSandbox
