import SignetSandbox.Cli.Verify.Bindings

/-!
# When the bootstrap deletes the cluster

The program asks k3d to delete the cluster only where it replaces a drifted one
(`deletesCluster_iff`). Its verdict takes an inspection that docker refuses for a missing
container, so that a cluster is deleted whose state could not be found
(`ensureCluster_spares`).
-/

namespace SignetSandbox.Local

open Interleave Prog

/-! ## Footprints -/

/-- The operation runs a command with the arguments that delete the cluster. -/
def HostOp.Deletes : HostOp → Prop
  | .output command | .status command => deleteArgs <:+ command.args
  | _ => False

/-- Other arguments do not delete the cluster, whatever stands before them. -/
theorem not_deletes_withArgs {args : List String} (h : ¬deleteArgs <:+ args)
    (hlength : deleteArgs.length ≤ args.length) (command : Command) :
    ¬deleteArgs <:+ (command.withArgs args).args := by
  intro hsuffix
  apply h
  exact List.suffix_of_suffix_length_le hsuffix (List.suffix_append command.args args) hlength

section

variable {α : Type} {P : HostOp → Prop} {platform : Platform} {bin : String}

theorem issues_liftHost {p : OnHost α} (h : p.Issues P) : (liftM p : Bootstrap α).run.Issues P :=
  h.map

theorem issues_orFail {p : OnHost (Except String α)} (h : p.Issues P) : (orFail p).run.Issues P :=
  h.map

theorem issues_ask {op : HostOp} (h : P op) : (ask op).Issues P := issues_issue.2 h

theorem succeeds_issues {command : Command} (h : ¬deleteArgs <:+ command.args) :
    (succeeds command).Issues fun op => ¬op.Deletes :=
  Issues.map (issues_ask h)

theorem run_issues {command : Command} (h : ¬deleteArgs <:+ command.args) :
    (run command).run.Issues fun op => ¬op.Deletes := by
  apply Issues.bindExcept (issues_orFail (issues_ask h))
  intro success
  split
  · exact issues_pureExcept _
  · exact issues_throw _

theorem fetchAttempts_issues {get : OnHost (Except String α)} {url : String}
    (hget : get.Issues fun op => ¬op.Deletes) (n : Nat) :
    (fetchAttempts get url n).run.Issues fun op => ¬op.Deletes := by
  induction n with
  | zero => exact issues_throw _
  | succ n ih =>
    apply Issues.bindExcept (issues_liftHost hget)
    intro reply
    cases reply with
    | ok value => exact issues_pureExcept _
    | error e =>
      refine Issues.bindExcept ?_ fun _ => ih
      split
      · exact issues_liftHost (issues_ask id)
      · exact issues_pureExcept _

theorem fetchWithRetries_issues {get : OnHost (Except String α)} {url : String}
    (hget : get.Issues fun op => ¬op.Deletes) :
    (fetchWithRetries get url).run.Issues fun op => ¬op.Deletes :=
  (issues_orFail (issues_ask id)).bindExcept fun _ => fetchAttempts_issues hget 3

theorem download_issues {vendored downloadUrl : String} {versionUrl : Option String} :
    (download vendored downloadUrl versionUrl).run.Issues fun op => ¬op.Deletes := by
  have hurl : (versionedUrl downloadUrl versionUrl).run.Issues fun op => ¬op.Deletes := by
    cases versionUrl with
    | none => exact issues_pureExcept _
    | some pattern =>
      exact (fetchWithRetries_issues (issues_ask id)).bindExcept fun _ => issues_pureExcept _
  apply hurl.bindExcept
  intro url
  apply (fetchWithRetries_issues (issues_ask id)).bindExcept
  intro body
  apply (issues_orFail (issues_ask id)).bindExcept
  intro _
  exact issues_orFail (issues_ask id)

/-- Resolving a tool deletes nothing. -/
theorem tool_issues {name downloadUrl : String} {versionUrl : Option String} :
    (tool bin name downloadUrl versionUrl).run.Issues fun op => ¬op.Deletes := by
  have havailable : ∀ vendored, (available vendored name).Issues fun op => ¬op.Deletes := by
    intro vendored
    apply Issues.bind (issues_ask id)
    intro found
    split
    · trivial
    · apply succeeds_issues
      change ¬deleteArgs <:+ ["--version"]
      decide
  apply (issues_liftHost (havailable _)).bindExcept
  intro present
  refine Issues.bindExcept ?_ fun _ => ?_
  · split
    · exact issues_pureExcept _
    · exact download_issues
  apply (issues_liftHost (issues_ask id)).bindExcept
  intro found
  apply (issues_liftHost (issues_ask id)).bindExcept
  intro path
  exact issues_pureExcept _

theorem k3d_issues : (k3d platform bin).run.Issues fun op => ¬op.Deletes := tool_issues

theorem clusterExists_issues : (clusterExists platform bin).run.Issues fun op => ¬op.Deletes := by
  apply k3d_issues.bindExcept
  intro cmd
  exact issues_liftHost (succeeds_issues (not_deletes_withArgs (by decide) (by decide) cmd))

theorem clusterSpecDrifted_issues {fromStr : String → Except String (BTreeMap String Json)} :
    (liftM (clusterSpecDrifted fromStr) : Bootstrap Bool).run.Issues fun op => ¬op.Deletes := by
  apply issues_liftHost
  apply Issues.map
  apply issues_ask
  change ¬deleteArgs <:+ inspectServerlb.args
  decide

theorem createCluster_issues : (createCluster platform bin).run.Issues fun op => ¬op.Deletes := by
  apply k3d_issues.bindExcept
  intro cmd
  apply (run_issues (not_deletes_withArgs (by decide) (by decide) cmd)).bindExcept
  intro _
  apply k3d_issues.bindExcept
  intro cmd
  exact run_issues (not_deletes_withArgs (by decide) (by decide) cmd)

theorem startCluster_issues : (startCluster platform bin).run.Issues fun op => ¬op.Deletes := by
  apply k3d_issues.bindExcept
  intro cmd
  apply (issues_orFail (issues_ask (not_deletes_withArgs (by decide) (by decide) cmd))).bindExcept
  intro out
  split
  · exact issues_pureExcept _
  · apply clusterExists_issues.bindExcept
    intro existing
    split
    · exact issues_throw _
    · exact issues_pureExcept _

theorem waitForNode_issues : (waitForNode platform bin).run.Issues fun op => ¬op.Deletes := by
  unfold waitForNode
  induction NODE_READY_TIMEOUT_SECS / 2 with
  | zero => exact issues_throw _
  | succ rounds ih =>
    apply tool_issues.bindExcept
    intro cmd
    apply (issues_liftHost (issues_ask (not_deletes_withArgs (by decide) (by decide) cmd))).bindExcept
    intro out
    split
    · exact issues_pureExcept _
    · exact (issues_liftHost (issues_ask id)).bindExcept fun _ => ih

end

/-! ## The machine -/

/-- How the inspection of the serverlb container ends. -/
inductive Inspection
  | success (stdout stderr : String)
  /-- Docker refuses: there is no such container. -/
  | missing (stdout stderr : String)
  /-- Docker refuses for another reason. -/
  | failed (stdout stderr : String)
  | notSpawned (error : String)

namespace Inspection

/-- What the program sees of it. -/
def output : Inspection → Except String Output
  | success stdout stderr => .ok ⟨true, stdout, stderr⟩
  | missing stdout stderr | failed stdout stderr => .ok ⟨false, stdout, stderr⟩
  | notSpawned error => .error error

/-- It finds the state of the container. -/
def Finds (fromStr : String → Except String (BTreeMap String Json)) : Inspection → Prop
  | success stdout _ => ∃ bindings, fromStr stdout = .ok bindings ∧ WellFormed bindings
  | missing _ _ => True
  | failed _ _ | notSpawned _ => False

/-- It does not run, or docker refuses for another reason than a missing container. -/
def Refused : Inspection → Prop
  | failed _ _ | notSpawned _ => True
  | success _ _ | missing _ _ => False

end Inspection

/-- A host with its states. -/
structure Machine (σ : Type) where
  serve : (op : HostOp) → σ → op.Reply × σ
  inspection : σ → Inspection
  /-- The port bindings of the serverlb container, if it exists. -/
  serverlb : σ → Option (BTreeMap String Json)

namespace Machine

variable {σ : Type}

/-- Docker tells the truth: it prints the bindings of the container, and it refuses for a
missing container only where there is none. -/
structure Laws (fromStr : String → Except String (BTreeMap String Json)) (m : Machine σ) :
    Prop where
  inspect : ∀ s, (m.serve (.output inspectServerlb) s).1 = (m.inspection s).output
  success : ∀ {s stdout stderr bindings}, m.inspection s = .success stdout stderr →
    fromStr stdout = .ok bindings → m.serverlb s = some bindings
  missing : ∀ {s stdout stderr}, m.inspection s = .missing stdout stderr → m.serverlb s = none

/-- The container is absent, or does not publish the expected ports. -/
def Drifted (m : Machine σ) (s : σ) : Prop :=
  ∀ bindings, m.serverlb s = some bindings → ¬∀ n, Publishes bindings n ↔ n ∈ expectedHostPorts

variable (m : Machine σ) (platform : Platform) (bin : String) (s : σ)

/-- k3d can be looked up. -/
def HasK3d : Prop := ∃ cmd, ((k3d platform bin).run.served m.serve s).1 = .ok cmd

/-- k3d reports the cluster. -/
def HasCluster : Prop := ((clusterExists platform bin).run.served m.serve s).1 = .ok true

/-- The state in which the container is inspected. -/
def atInspection : σ := ((clusterExists platform bin).run.served m.serve s).2

/-- The state after that. -/
def inspected : σ := (m.serve (.output inspectServerlb) (m.atInspection platform bin s)).2

end Machine

section

variable {σ : Type} (fromStr : String → Except String (BTreeMap String Json)) (m : Machine σ)
  (platform : Platform) (bin : String) (s : σ)

def DeletesCluster : Prop :=
  ∃ op ∈ (ensureCluster fromStr platform bin).run.issued m.serve s, op.Deletes

/-- The cluster is deleted only where its spec has drifted, and is kept where that cannot be
found out. -/
def Spares : Prop :=
  (DeletesCluster fromStr m platform bin s → m.Drifted (m.atInspection platform bin s)) ∧
    (¬(m.inspection (m.atInspection platform bin s)).Finds fromStr →
      ¬DeletesCluster fromStr m platform bin s)

variable {fromStr m platform bin s}

theorem deleteCluster_deletes :
    (∃ op ∈ (deleteCluster platform bin).run.issued m.serve s, op.Deletes) ↔
      m.HasK3d platform bin s := by
  unfold deleteCluster
  rw [exists_issued_bind k3d_issues]
  constructor
  · rintro ⟨cmd, hcmd, -⟩
    exact ⟨cmd, hcmd⟩
  · rintro ⟨cmd, hcmd⟩
    refine ⟨cmd, hcmd, .status (cmd.withArgs deleteArgs), List.mem_cons_self, ?_⟩
    exact List.suffix_append _ _

/-- An existing cluster is deleted on the verdict that it has drifted. -/
theorem reuseCluster_deletes :
    (∃ op ∈ (reuseCluster fromStr platform bin).run.issued m.serve s, op.Deletes) ↔
      specDrifted fromStr (m.serve (.output inspectServerlb) s).1 = true ∧
        m.HasK3d platform bin (m.serve (.output inspectServerlb) s).2 := by
  have hserved : (liftM (clusterSpecDrifted fromStr) : Bootstrap Bool).run.served m.serve s =
      (.ok (specDrifted fromStr (m.serve (.output inspectServerlb) s).1),
        (m.serve (.output inspectServerlb) s).2) := rfl
  unfold reuseCluster
  rw [exists_issued_bind clusterSpecDrifted_issues, hserved]
  dsimp only
  cases specDrifted fromStr (m.serve (.output inspectServerlb) s).1 with
  | false =>
    simp only [Bool.false_eq_true, false_and, iff_false]
    rintro ⟨drifted, ⟨⟩, h⟩
    refine Issues.not_issued _ ?_ _ h
    apply startCluster_issues.bindExcept
    intro deleted
    split
    · exact createCluster_issues
    · exact issues_pureExcept _
  | true =>
    rw [← deleteCluster_deletes, ← exists_issued_bind_left fun _ => createCluster_issues]
    constructor
    · rintro ⟨drifted, ⟨⟩, h⟩
      exact ⟨rfl, h⟩
    · rintro ⟨-, h⟩
      exact ⟨true, rfl, h⟩

/-- When the bootstrap deletes the cluster: it exists, the verdict is that it has drifted, and
k3d can be looked up again. -/
theorem deletesCluster_iff : DeletesCluster fromStr m platform bin s ↔
    m.HasCluster platform bin s ∧
      specDrifted fromStr
        (m.serve (.output inspectServerlb) (m.atInspection platform bin s)).1 = true ∧
      m.HasK3d platform bin (m.inspected platform bin s) := by
  unfold DeletesCluster ensureCluster
  rw [exists_issued_bind clusterExists_issues]
  simp only [exists_issued_bind_left fun _ => waitForNode_issues]
  constructor
  · rintro ⟨existing, hexisting, h⟩
    cases existing with
    | false => exact absurd h (createCluster_issues.not_issued _ _)
    | true => exact ⟨hexisting, reuseCluster_deletes.1 h⟩
  · rintro ⟨hexisting, h⟩
    exact ⟨true, hexisting, reuseCluster_deletes.2 h⟩

/-! ## The verdict -/

/-- The verdict of drift: docker has refused, or has printed other ports than the expected. -/
theorem specDrifted_output {inspection : Inspection} :
    specDrifted fromStr inspection.output = true ↔
      (∃ stdout stderr, inspection = .success stdout stderr ∧
        ∃ bindings, fromStr stdout = .ok bindings ∧ WellFormed bindings ∧
          ¬∀ n, Publishes bindings n ↔ n ∈ expectedHostPorts) ∨
      (∃ stdout stderr, inspection = .missing stdout stderr) ∨ inspection.Refused := by
  cases inspection with
  | missing stdout stderr =>
    simp [specDrifted, Inspection.output]
  | failed stdout stderr =>
    simp [specDrifted, Inspection.output, Inspection.Refused]
  | notSpawned error =>
    simp [specDrifted, Inspection.output, Inspection.Refused]
  | success stdout stderr =>
    have hverdict : specDrifted fromStr (Inspection.success stdout stderr).output = true ↔
        ∃ ports, parseHostPortBindings fromStr stdout = .ok ports ∧
          ports ≠ expectedHostPorts.toFinset := by
      simp only [specDrifted, Inspection.output, if_true]
      cases parseHostPortBindings fromStr stdout <;> simp
    have hdiffers : ∀ {ports : Finset Nat} {bindings}, (∀ n, n ∈ ports ↔ Publishes bindings n) →
        (ports = expectedHostPorts.toFinset ↔ ∀ n, Publishes bindings n ↔ n ∈ expectedHostPorts) := by
      intro ports bindings hports
      simp only [Finset.ext_iff, hports, List.mem_toFinset]
    rw [hverdict]
    constructor
    · rintro ⟨ports, hparse, hne⟩
      obtain ⟨bindings, hfrom, hwell, hports⟩ := parseHostPortBindings_eq_ok.1 hparse
      exact .inl ⟨stdout, stderr, rfl, bindings, hfrom, hwell, fun h => hne ((hdiffers hports).2 h)⟩
    · rintro (⟨_, _, ⟨⟩, bindings, hfrom, hwell, hother⟩ | ⟨_, _, ⟨⟩⟩ | ⟨⟨⟩⟩)
      obtain ⟨ports, hparse⟩ := exists_parseHostPortBindings hfrom hwell
      obtain ⟨bindings', hfrom', -, hports⟩ := parseHostPortBindings_eq_ok.1 hparse
      rw [hfrom] at hfrom'
      cases hfrom'
      exact ⟨ports, hparse, fun h => hother ((hdiffers hports).1 h)⟩

theorem Inspection.Refused.not_finds {inspection : Inspection} (h : inspection.Refused) :
    ¬inspection.Finds fromStr := by
  cases inspection with
  | success stdout stderr => exact h.elim
  | missing stdout stderr => exact h.elim
  | failed stdout stderr => exact id
  | notSpawned error => exact id

/-- The bootstrap spares clusters, but for one kind of inspection: docker does not run, or
refuses for another reason than a missing container, while the cluster exists. -/
theorem ensureCluster_spares (laws : m.Laws fromStr) : Spares fromStr m platform bin s ↔
    ¬(m.HasCluster platform bin s ∧ (m.inspection (m.atInspection platform bin s)).Refused ∧
      m.HasK3d platform bin (m.inspected platform bin s)) := by
  unfold Spares
  rw [deletesCluster_iff, laws.inspect, specDrifted_output]
  constructor
  · rintro ⟨-, hkeeps⟩ ⟨hcluster, hrefused, hk3d⟩
    apply hkeeps hrefused.not_finds
    exact ⟨hcluster, .inr (.inr hrefused), hk3d⟩
  · intro hnot
    constructor
    · rintro ⟨hcluster, ⟨stdout, stderr, hinspection, bindings, hfrom, -, hother⟩ |
        ⟨stdout, stderr, hinspection⟩ | hrefused, hk3d⟩ bindings' hserverlb
      · rw [laws.success hinspection hfrom] at hserverlb
        cases hserverlb
        exact hother
      · rw [laws.missing hinspection] at hserverlb
        cases hserverlb
      · exact absurd ⟨hcluster, hrefused, hk3d⟩ hnot
    · rintro hfinds ⟨hcluster, ⟨stdout, stderr, hinspection, bindings, hfrom, hwell, -⟩ |
        ⟨stdout, stderr, hinspection⟩ | hrefused, hk3d⟩
      · apply hfinds
        rw [hinspection]
        exact ⟨bindings, hfrom, hwell⟩
      · apply hfinds
        rw [hinspection]
        trivial
      · exact hnot ⟨hcluster, hrefused, hk3d⟩

end

/-! ## A daemon that cannot be reached -/

def bindingOn (port : String) : Json :=
  .object [("HostIp", .string "0.0.0.0"), ("HostPort", .string port)]

/-- The bindings of the current spec. -/
def currentBindings : BTreeMap String Json where
  entries := [("20000-20399/tcp", .array [bindingOn "20000-20399"]),
    ("6443/tcp", .array [bindingOn "34611"]), ("80/tcp", .array [bindingOn "80"]),
    ("8081/tcp", .array [bindingOn "8081"])]
  sorted := by decide

/-- As docker prints them, but for white space. -/
def currentText : String :=
  r#"{"20000-20399/tcp":[{"HostIp":"0.0.0.0","HostPort":"20000-20399"}],"# ++
    r#""6443/tcp":[{"HostIp":"0.0.0.0","HostPort":"34611"}],"# ++
    r#""80/tcp":[{"HostIp":"0.0.0.0","HostPort":"80"}],"# ++
    r#""8081/tcp":[{"HostIp":"0.0.0.0","HostPort":"8081"}]}"#

/-- The parser on that text. -/
def sampleFromStr (text : String) : Except String (BTreeMap String Json) :=
  if text = currentText then .ok currentBindings else .error "expected value at line 1 column 1"

/-- A host with the cluster of the current spec, on which k3d works. -/
def currentHost (inspection : Inspection) : Machine Unit where
  serve op _ :=
    match op with
    | .pathExists _ => (true, ())
    | .downloadClient | .write _ _ | .setPermissions _ _ => (.ok (), ())
    | .getText _ => (.ok "", ())
    | .getBytes _ => (.ok ByteArray.empty, ())
    | .varPath => (some "/usr/bin:/bin", ())
    | .output command =>
      (if command = inspectServerlb then inspection.output else .ok ⟨true, "True", ""⟩, ())
    | .status _ => (.ok true, ())
    | .sleep _ => ((), ())
  inspection _ := inspection
  serverlb _ := some currentBindings

theorem currentHost_laws {inspection : Inspection}
    (h : ∀ stdout stderr, inspection ≠ .missing stdout stderr) :
    (currentHost inspection).Laws sampleFromStr where
  inspect _ := by
    change (if inspectServerlb = inspectServerlb then inspection.output
      else .ok ⟨true, "True", ""⟩) = inspection.output
    exact if_pos rfl
  success {_ stdout _ bindings} _ hfrom := by
    unfold sampleFromStr at hfrom
    split at hfrom
    · cases hfrom
      rfl
    · cases hfrom
  missing hmissing := absurd hmissing (h _ _)

theorem publishesRange_bindingOn {key port : String} {m n k : Nat} (hne : port ≠ "")
    (htext : PortText port.toList m n) :
    (∃ first last, PublishesRange key (bindingOn port) first last ∧ first ≤ k ∧ k ≤ last) ↔
      m ≤ k ∧ k ≤ n := by
  constructor
  · rintro ⟨first, last, ⟨text, hside, htext'⟩, hk⟩
    rw [hostSide_iff, ← hostSide_iff.1 (.named rfl hne)] at hside
    subst hside
    exact htext.mem htext' hk
  · intro hk
    exact ⟨m, n, ⟨port, .named rfl hne, htext⟩, hk⟩

theorem currentBindings_publishes (n : Nat) :
    Publishes currentBindings n ↔ n ∈ expectedHostPorts := by
  have hsingle : ∀ {key : String} (port : String) (m : Nat), port ≠ "" →
      parseU32 port.toList = some m →
      ((∃ first last, PublishesRange key (bindingOn port) first last ∧ first ≤ n ∧ n ≤ last) ↔
        n = m) := by
    intro key port m hne hparse
    rw [publishesRange_bindingOn hne (.single (parseU32_eq_some.1 hparse))]
    omega
  have hwindow : ∀ {key : String}, (∃ first last,
      PublishesRange key (bindingOn "20000-20399") first last ∧ first ≤ n ∧ n ≤ last) ↔
        20000 ≤ n ∧ n ≤ 20399 := by
    intro key
    have htext : PortText ("20000".toList ++ '-' :: "20399".toList) 20000 20399 :=
      .range (parseU32_eq_some.1 (by decide)) (parseU32_eq_some.1 (by decide))
    exact publishesRange_bindingOn (by decide) htext
  rw [mem_expectedHostPorts]
  constructor
  · rintro ⟨key, entry, ⟨list, hkey, hentry⟩, hrange⟩
    simp only [currentBindings, List.mem_cons, List.not_mem_nil, or_false, Prod.mk.injEq,
      Json.array.injEq] at hkey
    rcases hkey with ⟨rfl, rfl⟩ | ⟨rfl, rfl⟩ | ⟨rfl, rfl⟩ | ⟨rfl, rfl⟩ <;>
      cases List.mem_singleton.1 hentry
    · exact .inr (.inr (hwindow.1 hrange))
    · exact .inr (.inl ((hsingle "34611" 34611 (by decide) (by decide)).1 hrange))
    · rw [(hsingle "80" 80 (by decide) (by decide)).1 hrange]
      exact .inl List.mem_cons_self
    · rw [(hsingle "8081" 8081 (by decide) (by decide)).1 hrange]
      exact .inl (List.mem_cons_of_mem _ List.mem_cons_self)
  · have hbound : ∀ key port, (key, Json.array [bindingOn port]) ∈ currentBindings.entries →
        (∃ first last, PublishesRange key (bindingOn port) first last ∧ first ≤ n ∧ n ≤ last) →
        Publishes currentBindings n := by
      intro key port hmem hrange
      exact ⟨key, _, ⟨_, hmem, List.mem_singleton_self _⟩, hrange⟩
    rintro (hn | hn | hn)
    · rcases List.mem_cons.1 hn with hn | hn
      · exact hbound "80/tcp" "80" (by simp [currentBindings])
          ((hsingle "80" 80 (by decide) (by decide)).2 hn)
      · exact hbound "8081/tcp" "8081" (by simp [currentBindings])
          ((hsingle "8081" 8081 (by decide) (by decide)).2 (List.mem_singleton.1 hn))
    · exact hbound "6443/tcp" "34611" (by simp [currentBindings])
        ((hsingle "34611" 34611 (by decide) (by decide)).2 hn)
    · exact hbound "20000-20399/tcp" "20000-20399" (by simp [currentBindings]) (hwindow.2 hn)

def unreachable : Inspection :=
  .failed "" "Cannot connect to the Docker daemon at unix:///var/run/docker.sock."

def linux : Platform := ⟨false, "x86_64"⟩

/-- A cluster of the current spec is deleted when the daemon cannot be reached. -/
theorem not_spares_unreachable : (currentHost unreachable).Laws sampleFromStr ∧
    (∀ n, Publishes currentBindings n ↔ n ∈ expectedHostPorts) ∧
    ¬Spares sampleFromStr (currentHost unreachable) linux "/root/.signet/bin" () := by
  have hlaws : (currentHost unreachable).Laws sampleFromStr := by
    apply currentHost_laws
    intro stdout stderr h
    cases h
  refine ⟨hlaws, currentBindings_publishes, ?_⟩
  rintro ⟨-, hkeeps⟩
  have hrefused : unreachable.Refused := trivial
  apply hkeeps hrefused.not_finds
  rw [deletesCluster_iff, hlaws.inspect, specDrifted_output]
  refine ⟨?_, .inr (.inr hrefused), ?_⟩
  · rfl
  · exact ⟨_, rfl⟩

theorem ensureCluster_spares_current :
    Spares sampleFromStr (currentHost (.success currentText "")) linux "/root/.signet/bin" () := by
  have hlaws : (currentHost (.success currentText "")).Laws sampleFromStr := by
    apply currentHost_laws
    intro stdout stderr h
    cases h
  apply (ensureCluster_spares hlaws).2
  rintro ⟨-, hrefused, -⟩
  exact hrefused

end SignetSandbox.Local
