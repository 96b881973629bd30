import SignetSandbox.Api.Dispatch
import SignetSandbox.Api.Faucet
import SignetSandbox.Api.Main
import SignetSandbox.Api.Mesh
import SignetSandbox.Api.Rpc
import SignetSandbox.Api.Verify.Alone
import SignetSandbox.Api.Verify.Capacity
import SignetSandbox.Api.Verify.Connections
import SignetSandbox.Api.Verify.Contract
import SignetSandbox.Api.Verify.Credentials
import SignetSandbox.Api.Verify.Exposed
import SignetSandbox.Api.Verify.Faucet
import SignetSandbox.Api.Verify.Handlers
import SignetSandbox.Api.Verify.Hosts
import SignetSandbox.Api.Verify.Identity
import SignetSandbox.Api.Verify.Instances
import SignetSandbox.Api.Verify.Knowledge
import SignetSandbox.Api.Verify.Lifecycle
import SignetSandbox.Api.Verify.Merging
import SignetSandbox.Api.Verify.Mesh
import SignetSandbox.Api.Verify.Names
import SignetSandbox.Api.Verify.Namespaces
import SignetSandbox.Api.Verify.Ordinary
import SignetSandbox.Api.Verify.Pools
import SignetSandbox.Api.Verify.Ports
import SignetSandbox.Api.Verify.Provisioning
import SignetSandbox.Api.Verify.Reaping
import SignetSandbox.Api.Verify.Reasons
import SignetSandbox.Api.Verify.Reconcile
import SignetSandbox.Api.Verify.Rejections
import SignetSandbox.Api.Verify.Resolution
import SignetSandbox.Api.Verify.Retries
import SignetSandbox.Api.Verify.Spellings
import SignetSandbox.Api.Verify.Statuses
import SignetSandbox.Api.Verify.Strikes
import SignetSandbox.Api.Verify.Supervision
import SignetSandbox.Api.Verify.Tables
import SignetSandbox.Api.Verify.Tenants
import SignetSandbox.Api.Verify.Tokens
import SignetSandbox.Api.Verify.Updates
import SignetSandbox.Bitcoind.Client
import SignetSandbox.Bitcoind.Faucet
import SignetSandbox.Cli.Client
import SignetSandbox.Cli.Cluster
import SignetSandbox.Cli.Config
import SignetSandbox.Cli.Duration
import SignetSandbox.Cli.Images
import SignetSandbox.Cli.Profile
import SignetSandbox.Cli.Rpc
import SignetSandbox.Cli.Up
import SignetSandbox.Cli.Verify.Bindings
import SignetSandbox.Cli.Verify.Cluster
import SignetSandbox.Cli.Verify.Config
import SignetSandbox.Cli.Verify.Duration
import SignetSandbox.Cli.Verify.Images
import SignetSandbox.Cli.Verify.Profile
import SignetSandbox.Cli.Verify.Refs
import SignetSandbox.Cli.Verify.Rpc
import SignetSandbox.Cli.Verify.SignedUrl
import SignetSandbox.Cli.Verify.Up
import SignetSandbox.Cli.Verify.Writings
import SignetSandbox.Core.BTreeMap
import SignetSandbox.Core.Binary64
import SignetSandbox.Core.Crates
import SignetSandbox.Core.Env
import SignetSandbox.Core.IpAddr
import SignetSandbox.Core.Uuid
import SignetSandbox.Core.Verify.Versions
import SignetSandbox.Core.Versions
import SignetSandbox.Db.Ports
import SignetSandbox.Db.Schema
import SignetSandbox.Db.Statement
import SignetSandbox.Db.Verify.Ports
import SignetSandbox.Interleave.Bounded
import SignetSandbox.Interleave.Diary
import SignetSandbox.Interleave.History
import SignetSandbox.Interleave.Prog
import SignetSandbox.Interleave.System
import SignetSandbox.Interleave.View
import SignetSandbox.Merkle
import SignetSandbox.Nostr.HttpAuth
import SignetSandbox.Nostr.Verify.HttpAuth
import SignetSandbox.Orchestrator.Footprint
import SignetSandbox.Orchestrator.Images
import SignetSandbox.Orchestrator.Kube
import SignetSandbox.Orchestrator.Mesh
import SignetSandbox.Orchestrator.Provision
import SignetSandbox.Orchestrator.Tls
import SignetSandbox.Orchestrator.Verify.Containers
import SignetSandbox.Orchestrator.Verify.Endpoints
import SignetSandbox.Orchestrator.Verify.Hex
import SignetSandbox.Orchestrator.Verify.Images
import SignetSandbox.Orchestrator.Verify.Mesh
import SignetSandbox.Orchestrator.Verify.Reaper
import SignetSandbox.Rpc.Envelope
import SignetSandbox.Rpc.Wire
import SignetSandbox.Sequence.Greedy
import SignetSandbox.Sequence.Padded
import SignetSandbox.Sequence.Runs
import SignetSandbox.Signer.Assemble
import SignetSandbox.Signer.Bip325
import SignetSandbox.Signer.Block
import SignetSandbox.Signer.Daemon
import SignetSandbox.Signer.Grind
import SignetSandbox.Signer.Script
import SignetSandbox.Signer.Verify.Accepted
import SignetSandbox.Signer.Verify.Assembled
import SignetSandbox.Signer.Verify.CompactSize
import SignetSandbox.Signer.Verify.Daemon
import SignetSandbox.Signer.Verify.Grind
import SignetSandbox.Signer.Verify.Height
import SignetSandbox.Signer.Verify.Premine
import SignetSandbox.Signer.Verify.Push
import SignetSandbox.Signer.Verify.Roots
import SignetSandbox.Signer.Verify.Template
import SignetSandbox.Signer.Verify.Wallet
import SignetSandbox.World
