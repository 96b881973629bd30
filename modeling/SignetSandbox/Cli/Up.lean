import SignetSandbox.Core.Env
import SignetSandbox.Rpc.Wire

/-!
# Waiting for an environment

`signet up` from its `environment.create` on: two loops that poll, one until the environment is
ready and one until its lightning instances are there (`signet_cli::up`). What the API replies
and what the clock shows are data. A list of rounds is as much of them as there was so far.
-/

namespace SignetSandbox.Up

inductive CliError
  | rpc (error : Wire.Error)
  | other (text : String)

/-- `status_label`. -/
def statusLabel (status : EnvStatus) : String := status.asStr

/-- One turn of a waiting loop: the nanoseconds since the start when it looks at the clock, and
the reply if it polls. -/
structure Round where
  elapsed : Nat
  reply : Except CliError ConnectionBundle

/-- What has been polled, and how it ended, if it did. -/
structure Waited (α : Type) where
  polled : List (Except CliError ConnectionBundle)
  outcome : Option (Except CliError α)
  rest : List Round

namespace Waited

variable {α β : Type}

def start (outcome : Except CliError α) (rounds : List Round) : Waited α := ⟨[], some outcome, rounds⟩

/-- The replies that were polled before. -/
def after (w : Waited α) (polled : List (Except CliError ConnectionBundle)) : Waited α :=
  { w with polled := polled ++ w.polled }

def andThen (w : Waited α) (next : α → List Round → Waited β) : Waited β :=
  match w.outcome with
  | some (.ok a) => (next a w.rest).after w.polled
  | some (.error e) => ⟨w.polled, some (.error e), w.rest⟩
  | none => ⟨w.polled, none, w.rest⟩

end Waited

section

variable (timeoutSecs : Nat)

/-- `Instant::now() >= deadline`. -/
def Round.late (r : Round) : Bool := timeoutSecs * 1000000000 ≤ r.elapsed

/-- The loop of an environment that is not ready: the clock first, then a poll. -/
def waitReady : List Round → Waited ConnectionBundle
  | [] => ⟨[], none, []⟩
  | r :: rounds =>
    if r.late timeoutSecs then
      .start (.error (.other s!"timed out waiting for readiness after {timeoutSecs}s")) rounds
    else
      match r.reply with
      | .error e => ⟨[r.reply], some (.error e), rounds⟩
      | .ok bundle =>
        match bundle.status with
        | .ready => ⟨[r.reply], some (.ok bundle), rounds⟩
        | .provisioning => (waitReady rounds).after [r.reply]
        | other => ⟨[r.reply], some (.error (.other
            s!"environment reached terminal status '{statusLabel other}' while provisioning")), rounds⟩

/-- The requested instances that the bundle does not have. -/
def missing (lightningNames : List String) (bundle : ConnectionBundle) : List String :=
  lightningNames.filter fun l => !bundle.lightning.containsKey l

/-- The loop of the wallets: a poll first, then the clock. It does not look at the status. -/
def waitLightning (lightningNames : List String) : List Round → Waited ConnectionBundle
  | [] => ⟨[], none, []⟩
  | r :: rounds =>
    match r.reply with
    | .error e => ⟨[r.reply], some (.error e), rounds⟩
    | .ok bundle =>
      if (missing lightningNames bundle).isEmpty then ⟨[r.reply], some (.ok bundle), rounds⟩
      else if r.late timeoutSecs then
        ⟨[r.reply], some (.error (.other
          s!"timed out waiting for lightning wallets after {timeoutSecs}s")), rounds⟩
      else (waitLightning lightningNames rounds).after [r.reply]

def untilReady (bundle : ConnectionBundle) (rounds : List Round) : Waited ConnectionBundle :=
  if bundle.status ≠ .ready then waitReady timeoutSecs rounds else .start (.ok bundle) rounds

def untilWallets (lightningNames : List String) (bundle : ConnectionBundle) (rounds : List Round) :
    Waited ConnectionBundle :=
  if lightningNames.isEmpty then .start (.ok bundle) rounds
  else waitLightning timeoutSecs lightningNames rounds

/-- Both waits, behind the reply of `environment.create`. -/
def waits (lightningNames : List String) (created : Except CliError ConnectionBundle)
    (rounds : List Round) : Waited ConnectionBundle :=
  ((Waited.start created rounds).andThen (untilReady timeoutSecs)).andThen
    (untilWallets timeoutSecs lightningNames)

/-- The rest of `up`. `finish` prints the bundle and opens the dashboard. -/
def up (lightningNames : List String) (finish : ConnectionBundle → Except CliError Unit)
    (created : Except CliError ConnectionBundle) (rounds : List Round) : Waited Unit :=
  (waits timeoutSecs lightningNames created rounds).andThen fun bundle rounds =>
    .start (finish bundle) rounds

end

end SignetSandbox.Up
