import SignetSandbox.Orchestrator.Mesh
import Mathlib.Data.Sym.Sym2

/-!
# The peer graph

The nodes of an environment answer `lncli` and keep their connections, to which others
may add at any moment (`network`). A mesh task that succeeds leaves every two instances
peered, and one that finds them peered connects nothing (`meshLightningPeers_meshes`).
-/

namespace SignetSandbox

open Interleave Orchestrator

/-! ## The nodes -/

/-- What the node of an instance is asked to do. -/
inductive Lncli
  | getinfo (a : String)
  | listpeers (a : String)
  | connect (a b : String)
deriving DecidableEq

/-- The nodes of an environment: their instances and identities, and which of them a
pod or an address leads to. -/
structure Nodes where
  envId : String
  instances : List String
  nodeId : String → String
  ofPod : String → Option String
  ofAddress : String → Option String
  distinct : instances.Nodup
  ofPod_eq : ∀ a ∈ instances, ofPod (lndPodName a) = some a
  ofAddress_eq : ∀ b ∈ instances, ofAddress (peerAddress (nodeId b) b) = some b

/-- A command that was given to a node: whether it was carried out, and who was peered
at that time. -/
structure Entry where
  command : Lncli
  done : Bool
  peers : List (Sym2 String)
deriving DecidableEq

/-- The connections between instances, and the commands so far. -/
structure Network where
  peers : List (Sym2 String)
  log : List Entry

/-- The output of an exec that succeeded. -/
def execOutput : (op : Op) → op.Reply → Option (List UInt8)
  | .kube (.exec _ _ _), .ok attached =>
    match attached.stdout with
    | some (.ok buf) => if attached.status = some "Success" then some buf else none
    | _ => none
  | _, _ => none

instance decidableOfOk {ε α : Type} {P : α → Prop} [∀ a, Decidable (P a)] : (x : Except ε α) →
    Decidable (∀ a, x = .ok a → P a)
  | .ok a => decidable_of_iff (P a) ⟨fun h _ hb => Except.ok.inj hb ▸ h, fun h => h a rfl⟩
  | .error _ => .isTrue nofun

namespace Nodes

variable (nodes : Nodes) (crates : Crates)

/-- How an exec in a pod of the environment is understood. -/
def command : Op → Option Lncli
  | .kube (.exec ns pod args) =>
    if ns = namespaceFor nodes.envId ∧ args.take 3 = lncliBase then
      (nodes.ofPod pod).bind fun a =>
        match args.drop 3 with
        | ["getinfo"] => some (.getinfo a)
        | ["listpeers"] => some (.listpeers a)
        | ["connect", address] => (nodes.ofAddress address).map (.connect a)
        | _ => none
    else none
  | _ => none

/-- The command was carried out, with an output that can be read. -/
def carriedOut : Lncli → Option (List UInt8) → Bool
  | _, none => false
  | .getinfo _, some buf => (parseNodeId crates buf).isOk
  | .listpeers _, some buf => (parsePeerKeys crates buf).isOk
  | .connect _ _, some _ => true

/-- A node that answers tells its identity and lists its peers among the instances. -/
def Truthful (peers : List (Sym2 String)) : Lncli → Option (List UInt8) → Prop
  | .getinfo a, some buf => ∀ id, parseNodeId crates buf = .ok id → id = nodes.nodeId a
  | .listpeers a, some buf => ∀ keys, parsePeerKeys crates buf = .ok keys →
      ∀ b ∈ nodes.instances, b ≠ a → (nodes.nodeId b ∈ keys ↔ s(a, b) ∈ peers)
  | _, _ => True

instance (peers : List (Sym2 String)) (command : Lncli) (output : Option (List UInt8)) :
    Decidable (nodes.Truthful crates peers command output) :=
  match command, output with
  | .getinfo _, some _ => inferInstanceAs (Decidable (∀ _, _ → _))
  | .listpeers _, some _ => inferInstanceAs (Decidable (∀ _, _ → _))
  | .connect _ _, _ => .isTrue trivial
  | .getinfo _, none => .isTrue trivial
  | .listpeers _, none => .isTrue trivial

/-- A connect that succeeds connects. -/
def added : Lncli → Bool → List (Sym2 String)
  | .connect a b, true => [s(a, b)]
  | _, _ => []

/-- The network after an operation, and after what others have `joined` by then. -/
def after (op : Op) (output : Option (List UInt8)) (joined : List (Sym2 String)) (n : Network) :
    Network :=
  match nodes.command op with
  | none => { n with peers := joined ++ n.peers }
  | some command =>
    let done := carriedOut crates command output
    { peers := added command done ++ (joined ++ n.peers)
      log := n.log ++ [⟨command, done, joined ++ n.peers⟩] }

/-- The platform with the nodes of one environment. Connections do not drop, and others
may connect nodes before any operation. -/
def network : System Unit Op Op.Reply (Choice × List (Sym2 String)) (World × Network) where
  exec _ c op w :=
    let r := World.exec c.1 op w.1
    ((r.1, nodes.after crates op (execOutput op r.2) c.2 w.2), r.2)
  adm _ c op w := ∀ command ∈ nodes.command op,
    nodes.Truthful crates (c.2 ++ w.2.peers) command (execOutput op (World.exec c.1 op w.1).2)
  env _ _ := False

instance (i : Unit) (c : Choice × List (Sym2 String)) (op : Op) (w : World × Network) :
    Decidable ((nodes.network crates).adm i c op w) :=
  inferInstanceAs (Decidable (∀ command ∈ nodes.command op, nodes.Truthful crates (c.2 ++ w.2.peers)
    command (execOutput op (World.exec c.1 op w.1).2)))

end Nodes

/-! ## How a network grows -/

/-- The network has come from `n` by the commands `new`. -/
structure Extends (n n' : Network) (new : List Entry) : Prop where
  log : n'.log = n.log ++ new
  peers : n.peers ⊆ n'.peers
  entries : ∀ e ∈ new, n.peers ⊆ e.peers ∧ e.peers ⊆ n'.peers
  grows : new.Pairwise fun e e' => e.peers ⊆ e'.peers

namespace Extends

variable {n n' n'' : Network} {new new' : List Entry}

theorem refl (n : Network) : Extends n n [] where
  log := (List.append_nil _).symm
  peers := List.Subset.refl _
  entries := nofun
  grows := List.Pairwise.nil

theorem trans (h : Extends n n' new) (h' : Extends n' n'' new') : Extends n n'' (new ++ new') where
  log := by rw [h'.log, h.log, List.append_assoc]
  peers := List.Subset.trans h.peers h'.peers
  entries e he := by
    rcases List.mem_append.1 he with he | he
    · exact ⟨(h.entries e he).1, List.Subset.trans (h.entries e he).2 h'.peers⟩
    · exact ⟨List.Subset.trans h.peers (h'.entries e he).1, (h'.entries e he).2⟩
  grows := List.pairwise_append.2 ⟨h.grows, h'.grows, fun e he e' he' =>
    List.Subset.trans (h.entries e he).2 (h'.entries e' he').1⟩

end Extends

/-! ## One command -/

section

variable {nodes : Nodes} {crates : Crates} {s s' : World × Network}

/-- A command has been given, with this output or without success. -/
structure Given (nodes : Nodes) (crates : Crates) (command : Lncli) (output : Option (List UInt8))
    (s s' : World × Network) (e : Entry) : Prop where
  same : e.command = command
  done : e.done = Nodes.carriedOut crates command output
  truthful : nodes.Truthful crates e.peers command output
  added : Nodes.added command e.done ⊆ s'.2.peers
  grew : Extends s.2 s'.2 [e]

theorem given_exec {c : Choice × List (Sym2 String)} {op : Op} {command : Lncli}
    (hop : nodes.command op = some command) (hadm : (nodes.network crates).adm () c op s) :
    ∃ e, Given nodes crates command (execOutput op (World.exec c.1 op s.1).2) s
      ((nodes.network crates).exec () c op s).1 e := by
  obtain ⟨choice, joined⟩ := c
  have hafter : ((nodes.network crates).exec () (choice, joined) op s).1.2 =
      nodes.after crates op (execOutput op (World.exec choice op s.1).2) joined s.2 := rfl
  unfold Nodes.after at hafter
  rw [hop] at hafter
  refine ⟨⟨command, _, joined ++ s.2.peers⟩, rfl, rfl, hadm command hop, ?_, ?_⟩
  · rw [hafter]
    exact List.subset_append_left _ _
  · rw [hafter]
    refine ⟨rfl, fun z hz => List.mem_append_right _ (List.mem_append_right _ hz), fun e he => ?_,
      List.pairwise_singleton _ _⟩
    obtain rfl := List.mem_singleton.1 he
    exact ⟨List.subset_append_right _ _, List.subset_append_right _ _⟩

/-- An exec yields the output of a success, or fails. -/
theorem ends_execInPod {inst : String} {args : List String} {command : Lncli}
    {Q : List UInt8 → World × Network → Prop} {R : OrchestrateError → World × Network → Prop}
    (hop : nodes.command (.kube (.exec (namespaceFor nodes.envId) (lndPodName inst) args)) = some command)
    (hQ : ∀ buf s' e, Given nodes crates command (some buf) s s' e → Q buf s')
    (hR : ∀ error s' e, Given nodes crates command none s s' e → R error s') :
    Ends (nodes.network crates) () (execInPod nodes.envId inst args) Q R s := by
  refine Ends.bind (wp_call.2 fun c hadm => ?_)
  obtain ⟨e, hgiven⟩ := given_exec hop hadm
  generalize hs' : ((nodes.network crates).exec () c _ s).1 = s' at hgiven ⊢
  change Given nodes crates command (execOutput _ ((nodes.network crates).exec () c _ s).2) s s' e at hgiven
  generalize ((nodes.network crates).exec () c _ s).2 = r at hgiven ⊢
  cases r with
  | error error => exact wp_ret.2 (hR _ s' e hgiven)
  | ok attached =>
    refine wp_ret.2 ?_
    obtain ⟨stdout, status⟩ := attached
    cases stdout with
    | none => exact ends_throw (hR _ s' e hgiven)
    | some read =>
      cases read with
      | error message => exact ends_throw (hR _ s' e hgiven)
      | ok buf =>
        dsimp only [execOutput, Except.mapError] at hgiven ⊢
        split at hgiven
        · next hstatus =>
          rw [if_pos hstatus]
          exact ends_pure (hQ buf s' e hgiven)
        · next hstatus =>
          rw [if_neg hstatus]
          exact ends_throw (hR _ s' e hgiven)

/-! ## The three commands -/

variable {a b : String}

theorem command_getinfo (ha : a ∈ nodes.instances) : nodes.command (.kube (.exec (namespaceFor nodes.envId)
    (lndPodName a) ["lncli", "--network=signet", LND_TLS_CERT_FLAG, "getinfo"])) = some (.getinfo a) := by
  have hbase : ["lncli", "--network=signet", LND_TLS_CERT_FLAG, "getinfo"].take 3 = lncliBase := rfl
  rw [Nodes.command, if_pos ⟨rfl, hbase⟩, nodes.ofPod_eq a ha]
  rfl

theorem command_listpeers (ha : a ∈ nodes.instances) : nodes.command (.kube (.exec
    (namespaceFor nodes.envId) (lndPodName a) (lncliBase ++ ["listpeers"]))) = some (.listpeers a) := by
  have hbase : (lncliBase ++ ["listpeers"]).take 3 = lncliBase := rfl
  rw [Nodes.command, if_pos ⟨rfl, hbase⟩, nodes.ofPod_eq a ha]
  rfl

theorem command_connect (ha : a ∈ nodes.instances) (hb : b ∈ nodes.instances) :
    nodes.command (.kube (.exec (namespaceFor nodes.envId) (lndPodName a)
      (lncliBase ++ ["connect", peerAddress (nodes.nodeId b) b]))) = some (.connect a b) := by
  have hbase : (lncliBase ++ ["connect", peerAddress (nodes.nodeId b) b]).take 3 = lncliBase := rfl
  rw [Nodes.command, if_pos ⟨rfl, hbase⟩, nodes.ofPod_eq a ha]
  change (nodes.ofAddress (peerAddress (nodes.nodeId b) b)).map (Lncli.connect a) = _
  rw [nodes.ofAddress_eq b hb]
  rfl

/-- One command has been given and was carried out, or not. -/
structure Gave (command : Lncli) (done : Bool) (s s' : World × Network) (e : Entry) : Prop where
  same : e.command = command
  done : e.done = done
  grew : Extends s.2 s'.2 [e]

theorem ends_lightningNodeId (ha : a ∈ nodes.instances) :
    Ends (nodes.network crates) () (lightningNodeId crates nodes.envId a)
      (fun id s' => id = nodes.nodeId a ∧ ∃ e, Gave (.getinfo a) true s s' e)
      (fun _ s' => ∃ e, Gave (.getinfo a) false s s' e) s := by
  refine Ends.bind (ends_execInPod (command_getinfo ha) (fun buf s' e h => ?_) fun _ s' e h =>
    ⟨e, h.same, h.done, h.grew⟩)
  have htruthful := h.truthful
  have hdone := h.done
  unfold Nodes.Truthful at htruthful
  unfold Nodes.carriedOut at hdone
  dsimp only at htruthful hdone
  cases hid : parseNodeId crates buf with
  | error error =>
    rw [hid] at hdone
    exact wp_ret.2 ⟨e, h.same, hdone, h.grew⟩
  | ok id =>
    rw [hid] at hdone
    exact wp_ret.2 ⟨htruthful id hid, e, h.same, hdone, h.grew⟩

theorem ends_lightningPeerKeys (ha : a ∈ nodes.instances) :
    Ends (nodes.network crates) () (lightningPeerKeys crates nodes.envId a)
      (fun keys s' => ∃ e, Gave (.listpeers a) true s s' e ∧ ∀ b ∈ nodes.instances, b ≠ a →
        (nodes.nodeId b ∈ keys ↔ s(a, b) ∈ e.peers))
      (fun _ s' => ∃ e, Gave (.listpeers a) false s s' e) s := by
  refine Ends.bind (ends_execInPod (command_listpeers ha) (fun buf s' e h => ?_) fun _ s' e h =>
    ⟨e, h.same, h.done, h.grew⟩)
  have htruthful := h.truthful
  have hdone := h.done
  unfold Nodes.Truthful at htruthful
  unfold Nodes.carriedOut at hdone
  dsimp only at htruthful hdone
  cases hkeys : parsePeerKeys crates buf with
  | error error =>
    rw [hkeys] at hdone
    exact wp_ret.2 ⟨e, h.same, hdone, h.grew⟩
  | ok keys =>
    rw [hkeys] at hdone
    exact wp_ret.2 ⟨e, ⟨h.same, hdone, h.grew⟩, htruthful keys hkeys⟩

theorem ends_lightningConnectPeer (ha : a ∈ nodes.instances) (hb : b ∈ nodes.instances) :
    Ends (nodes.network crates) () (lightningConnectPeer nodes.envId a (nodes.nodeId b) b)
      (fun _ s' => s(a, b) ∈ s'.2.peers ∧ ∃ e, Gave (.connect a b) true s s' e)
      (fun _ s' => ∃ e, Gave (.connect a b) false s s' e) s := by
  refine Ends.bind (ends_execInPod (command_connect ha hb) (fun buf s' e h => ?_) fun _ s' e h =>
    ⟨e, h.same, h.done, h.grew⟩)
  have hdone : e.done = true := h.done
  have hadded := h.added
  rw [hdone] at hadded
  exact ends_pure ⟨hadded List.mem_cons_self, e, h.same, hdone, h.grew⟩

/-! ## The loops -/

/-- The pair that an entry connects. -/
def Entry.pair? (e : Entry) : Option (Sym2 String) :=
  match e.command with
  | .connect a b => some s(a, b)
  | _ => none

/-- The pairs on which connect was called. -/
def pairs (new : List Entry) : List (Sym2 String) := new.filterMap Entry.pair?

/-- The number of connects that succeeded. -/
def connected (new : List Entry) : Nat := (new.filter fun e => e.pair?.isSome && e.done).length

theorem pairs_append (new new' : List Entry) : pairs (new ++ new') = pairs new ++ pairs new' :=
  List.filterMap_append

theorem connected_append (new new' : List Entry) :
    connected (new ++ new') = connected new + connected new' := by
  unfold connected
  rw [List.filter_append, List.length_append]

theorem connected_cons (e : Entry) (new : List Entry) :
    connected (e :: new) = connected [e] + connected new :=
  connected_append [e] new

theorem mem_pairs_iff {new : List Entry} {z : Sym2 String} :
    z ∈ pairs new ↔ ∃ e ∈ new, ∃ a b, e.command = .connect a b ∧ z = s(a, b) := by
  unfold pairs
  rw [List.mem_filterMap]
  refine exists_congr fun e => and_congr_right fun _ => ?_
  unfold Entry.pair?
  cases e.command with
  | connect a b => simp [eq_comm]
  | getinfo a | listpeers a => simp

/-- The node of `a` is asked for its peers, and to connect to instances in `bs` that
it was not peered with at the time of `old`, to each at most once. -/
structure Dials (a : String) (bs : List String) (old : List (Sym2 String)) (new : List Entry) : Prop where
  only : ∀ e ∈ new, e.command = .listpeers a ∨ ∃ b ∈ bs, e.command = .connect a b ∧ s(a, b) ∉ old
  once : (pairs new).Nodup

namespace Dials

variable {bs : List String} {old : List (Sym2 String)} {new : List Entry} {e : Entry}

theorem nil : Dials a bs old [] := ⟨nofun, List.nodup_nil⟩

theorem later (h : Dials a bs old new) : Dials a (b :: bs) old new where
  only e he := (h.only e he).imp_right fun ⟨b', hb', hcommand⟩ =>
    ⟨b', List.mem_cons_of_mem _ hb', hcommand⟩
  once := h.once

theorem mem_pairs (h : Dials a bs old new) {z : Sym2 String} (hz : z ∈ pairs new) :
    ∃ b ∈ bs, z = s(a, b) ∧ s(a, b) ∉ old := by
  obtain ⟨e, he, a', b', hcommand, rfl⟩ := mem_pairs_iff.1 hz
  rcases h.only e he with hlist | ⟨b, hb, hconnect, hold⟩
  · rw [hlist] at hcommand
    cases hcommand
  · rw [hconnect] at hcommand
    cases hcommand
    exact ⟨_, hb, rfl, hold⟩

theorem list (he : e.command = .listpeers a) (h : Dials a bs old new) : Dials a bs old (e :: new) where
  only := List.forall_mem_cons.2 ⟨.inl he, h.only⟩
  once := by
    have hnone : e.pair? = none := by
      unfold Entry.pair?
      rw [he]
    unfold pairs
    rw [List.filterMap_cons_none hnone]
    exact h.once

theorem connect (he : e.command = .connect a b) (hold : s(a, b) ∉ old) (hb : b ∉ bs)
    (h : Dials a bs old new) : Dials a (b :: bs) old (e :: new) where
  only := List.forall_mem_cons.2 ⟨.inr ⟨b, List.mem_cons_self, he, hold⟩, h.later.only⟩
  once := by
    have hsome : e.pair? = some s(a, b) := by
      unfold Entry.pair?
      rw [he]
    unfold pairs
    rw [List.filterMap_cons_some hsome]
    refine List.nodup_cons.2 ⟨fun hz => ?_, h.once⟩
    obtain ⟨b', hb', hsame, -⟩ := h.mem_pairs hz
    exact hb (Sym2.congr_right.1 hsame ▸ hb')

end Dials

theorem connected_of_not_done {e : Entry} (h : e.done = false) : connected [e] = 0 := by
  unfold connected
  rw [List.filter_cons_of_neg (by simp [h])]
  rfl

theorem connected_of_list {e : Entry} (h : e.command = .listpeers a) : connected [e] = 0 := by
  unfold connected Entry.pair?
  rw [List.filter_cons_of_neg (by simp [h])]
  rfl

theorem connected_of_connect {e : Entry} (h : e.command = .connect a b) (hdone : e.done = true) :
    connected [e] = 1 := by
  unfold connected Entry.pair?
  rw [List.filter_cons_of_pos (by simp [h, hdone])]
  rfl

/-- The instance `a` is connected to all later instances, or a command failed. -/
theorem ends_meshInstance {keys : List String} {old : List (Sym2 String)} (ha : a ∈ nodes.instances)
    (hkeys : ∀ b ∈ nodes.instances, b ≠ a → (nodes.nodeId b ∈ keys ↔ s(a, b) ∈ old)) :
    ∀ {bs : List String}, (∀ b ∈ bs, b ∈ nodes.instances ∧ b ≠ a) → bs.Nodup →
      ∀ (k : Nat) (s : World × Network), old ⊆ s.2.peers →
        Ends (nodes.network crates) ()
          (meshInstance crates nodes.envId a keys (bs.map fun b => (b, nodes.nodeId b)) k)
          (fun n s' => ∃ new, Extends s.2 s'.2 new ∧ Dials a bs old new ∧ n = k + connected new ∧
            ∀ b ∈ bs, s(a, b) ∈ s'.2.peers)
          (fun _ s' => ∃ new, Extends s.2 s'.2 new ∧ Dials a bs old new ∧ ∃ e ∈ new, e.done = false) s
  | [], _, _, k, s, _ => ends_pure ⟨[], .refl _, .nil, rfl, nofun⟩
  | b :: bs, hbs, hnodup, k, s, hold => by
    obtain ⟨hb, hbs⟩ := List.forall_mem_cons.1 hbs
    obtain ⟨hbnew, hnodup⟩ := List.nodup_cons.1 hnodup
    rw [List.map_cons, meshInstance]
    split
    · next hmem =>
      have hpeered : s(a, b) ∈ s.2.peers := hold ((hkeys b hb.1 hb.2).1 hmem)
      refine (ends_meshInstance ha hkeys hbs hnodup k s hold).mono ?_ ?_
      · rintro n s' ⟨new, hgrew, hdials, hn, hpeers⟩
        exact ⟨new, hgrew, hdials.later, hn, List.forall_mem_cons.2 ⟨hgrew.peers hpeered, hpeers⟩⟩
      · rintro _ s' ⟨new, hgrew, hdials, hfailed⟩
        exact ⟨new, hgrew, hdials.later, hfailed⟩
    · next hmem =>
      have hunpeered : s(a, b) ∉ old := fun h => hmem ((hkeys b hb.1 hb.2).2 h)
      refine Ends.bind (ends_lift ((ends_lightningConnectPeer ha hb.1).mono ?_ ?_))
      · rintro _ s₁ ⟨hpeered, e, he⟩
        refine (ends_meshInstance ha hkeys hbs hnodup (k + 1) s₁
          (List.Subset.trans hold he.grew.peers)).mono ?_ ?_
        · rintro n s' ⟨new, hgrew, hdials, hn, hpeers⟩
          refine ⟨e :: new, he.grew.trans hgrew, hdials.connect he.same hunpeered hbnew, ?_,
            List.forall_mem_cons.2 ⟨hgrew.peers hpeered, hpeers⟩⟩
          rw [connected_cons, connected_of_connect he.same he.done]
          omega
        · rintro _ s' ⟨new, hgrew, hdials, e', he', hfailed⟩
          exact ⟨e :: new, he.grew.trans hgrew, hdials.connect he.same hunpeered hbnew, e',
            List.mem_cons_of_mem _ he', hfailed⟩
      · rintro error s₁ ⟨e, he⟩
        -- the connect failed; the peers are read again
        refine Ends.bind ((ends_lightningPeerKeys ha).mono ?_ ?_)
        · rintro keys' s₂ ⟨e₂, he₂, hkeys'⟩
          have hgrew₂ := he.grew.trans he₂.grew
          have hdials₂ : Dials a (b :: bs) old [e, e₂] := (Dials.list he₂.same .nil).connect he.same hunpeered hbnew
          split
          · next hraced =>
            have hpeered : s(a, b) ∈ s₂.2.peers :=
              (he₂.grew.entries e₂ List.mem_cons_self).2 ((hkeys' b hb.1 hb.2).1 hraced)
            refine (ends_meshInstance ha hkeys hbs hnodup k s₂
              (List.Subset.trans hold hgrew₂.peers)).mono ?_ ?_
            · rintro n s' ⟨new, hgrew, hdials, hn, hpeers⟩
              refine ⟨e :: e₂ :: new, hgrew₂.trans hgrew,
                (Dials.list he₂.same hdials).connect he.same hunpeered hbnew, ?_,
                List.forall_mem_cons.2 ⟨hgrew.peers hpeered, hpeers⟩⟩
              rw [connected_cons e, connected_cons e₂, connected_of_not_done he.done,
                connected_of_list he₂.same]
              omega
            · rintro _ s' ⟨new, hgrew, hdials, e', he', hfailed⟩
              exact ⟨e :: e₂ :: new, hgrew₂.trans hgrew,
                (Dials.list he₂.same hdials).connect he.same hunpeered hbnew, e, List.mem_cons_self,
                he.done⟩
          · exact ends_throw ⟨[e, e₂], hgrew₂, hdials₂, e, List.mem_cons_self, he.done⟩
        · rintro _ s₂ ⟨e₂, he₂⟩
          exact ⟨[e, e₂], he.grew.trans he₂.grew, (Dials.list he₂.same .nil).connect he.same hunpeered hbnew,
            e, List.mem_cons_self, he.done⟩

/-- Connects are between two of these instances, and only if the first was not peered
with the second when its peers were read; no pair is connected twice. -/
structure Rounds (l : List String) (new : List Entry) : Prop where
  only : ∀ e ∈ new, ∀ a b, e.command = .connect a b → a ∈ l ∧ b ∈ l ∧ a ≠ b ∧
    ∃ e' ∈ new, e'.command = .listpeers a ∧ s(a, b) ∉ e'.peers
  once : (pairs new).Nodup

theorem pairs_of_getinfo {new : List Entry} (h : ∀ e ∈ new, ∃ a, e.command = .getinfo a) :
    pairs new = [] := by
  refine List.eq_nil_iff_forall_not_mem.2 fun z hz => ?_
  obtain ⟨e, he, a, b, hcommand, -⟩ := mem_pairs_iff.1 hz
  obtain ⟨a', ha'⟩ := h e he
  rw [ha'] at hcommand
  cases hcommand

namespace Rounds

variable {l : List String} {new new' : List Entry} {e : Entry}

theorem nil : Rounds l [] := ⟨nofun, List.nodup_nil⟩

/-- One round of the outer loop before the others. -/
theorem cons (he : e.command = .listpeers a) (ha : a ∉ l) (hdials : Dials a l e.peers new)
    (h : Rounds l new') : Rounds (a :: l) (e :: (new ++ new')) where
  only e' he' a' b' hcommand := by
    rcases List.mem_cons.1 he' with rfl | he'
    · rw [he] at hcommand
      cases hcommand
    rcases List.mem_append.1 he' with he' | he'
    · rcases hdials.only e' he' with hlist | ⟨b, hb, hconnect, hold⟩
      · rw [hlist] at hcommand
        cases hcommand
      · rw [hconnect] at hcommand
        cases hcommand
        refine ⟨List.mem_cons_self, List.mem_cons_of_mem _ hb, ?_, e, List.mem_cons_self, he, hold⟩
        rintro rfl
        exact ha hb
    · obtain ⟨ha', hb', hne, e₂, he₂, hlist, hunpeered⟩ := h.only e' he' a' b' hcommand
      exact ⟨List.mem_cons_of_mem _ ha', List.mem_cons_of_mem _ hb', hne, e₂,
        List.mem_cons_of_mem _ (List.mem_append_right _ he₂), hlist, hunpeered⟩
  once := by
    have hfirst : pairs (e :: (new ++ new')) = pairs new ++ pairs new' := by
      have hnone : e.pair? = none := by
        unfold Entry.pair?
        rw [he]
      rw [← pairs_append]
      exact List.filterMap_cons_none hnone
    rw [hfirst]
    refine List.nodup_append.2 ⟨hdials.once, h.once, fun z hz z' hz' hsame => ?_⟩
    obtain ⟨b, hb, rfl, -⟩ := hdials.mem_pairs hz
    obtain ⟨e', he', a', b', hcommand, rfl⟩ := mem_pairs_iff.1 hz'
    obtain ⟨ha', hb', -⟩ := h.only e' he' a' b' hcommand
    -- the later rounds are among later instances only
    rcases Sym2.eq_iff.1 hsame with ⟨rfl, -⟩ | ⟨rfl, -⟩
    · exact ha ha'
    · exact ha hb'

/-- Asking for identities connects nothing. -/
theorem after (hids : ∀ e ∈ new, ∃ a, e.command = .getinfo a) (h : Rounds l new') :
    Rounds l (new ++ new') where
  only e he a b hcommand := by
    rcases List.mem_append.1 he with he | he
    · obtain ⟨a', ha'⟩ := hids e he
      rw [ha'] at hcommand
      cases hcommand
    · obtain ⟨ha, hb, hne, e', he', hlist⟩ := h.only e he a b hcommand
      exact ⟨ha, hb, hne, e', List.mem_append_right _ he', hlist⟩
  once := by
    rw [pairs_append, pairs_of_getinfo hids]
    exact h.once

end Rounds

/-- Every two of these instances are peered in the end, or a command failed. -/
theorem ends_meshInstances : ∀ {l : List String}, (∀ a ∈ l, a ∈ nodes.instances) → l.Nodup →
    ∀ (k : Nat) (s : World × Network),
      Ends (nodes.network crates) ()
        (meshInstances crates nodes.envId (l.map fun a => (a, nodes.nodeId a)) k)
        (fun n s' => ∃ new, Extends s.2 s'.2 new ∧ Rounds l new ∧ n = k + connected new ∧
          l.Pairwise fun a b => s(a, b) ∈ s'.2.peers)
        (fun _ s' => ∃ new, Extends s.2 s'.2 new ∧ Rounds l new ∧ ∃ e ∈ new, e.done = false) s
  | [], _, _, k, s => ends_pure ⟨[], .refl _, .nil, rfl, .nil⟩
  | a :: l, hl, hnodup, k, s => by
    obtain ⟨ha, hl⟩ := List.forall_mem_cons.1 hl
    obtain ⟨hanew, hnodup⟩ := List.nodup_cons.1 hnodup
    have hlater : ∀ b ∈ l, b ∈ nodes.instances ∧ b ≠ a := fun b hb =>
      ⟨hl b hb, fun h => hanew (h ▸ hb)⟩
    rw [List.map_cons, meshInstances]
    refine Ends.bind ((ends_lightningPeerKeys ha).mono ?_ ?_)
    · rintro keys s₁ ⟨e, he, hkeys⟩
      have hread : e.peers ⊆ s₁.2.peers := (he.grew.entries e List.mem_cons_self).2
      refine Ends.bind ((ends_meshInstance ha hkeys hlater hnodup k s₁ hread).mono ?_ ?_)
      · rintro n s₂ ⟨new, hgrew, hdials, rfl, hpeers⟩
        refine (ends_meshInstances hl hnodup _ s₂).mono ?_ ?_
        · rintro n s' ⟨new', hgrew', hrounds, rfl, hpairs⟩
          refine ⟨e :: (new ++ new'), he.grew.trans (hgrew.trans hgrew'),
            .cons he.same hanew hdials hrounds, ?_,
            List.pairwise_cons.2 ⟨fun b hb => hgrew'.peers (hpeers b hb), hpairs⟩⟩
          have hfirst := connected_append [e] (new ++ new')
          have hsecond := connected_append new new'
          rw [connected_of_list he.same, List.singleton_append] at hfirst
          omega
        · rintro _ s' ⟨new', hgrew', hrounds, e', he', hfailed⟩
          exact ⟨e :: (new ++ new'), he.grew.trans (hgrew.trans hgrew'),
            .cons he.same hanew hdials hrounds, e',
            List.mem_cons_of_mem _ (List.mem_append_right _ he'), hfailed⟩
      · rintro _ s' ⟨new, hgrew, hdials, e', he', hfailed⟩
        exact ⟨e :: (new ++ []), he.grew.trans (hgrew.trans (.refl _)),
          .cons he.same hanew hdials .nil, e', List.mem_cons_of_mem _ (List.mem_append_left _ he'), hfailed⟩
    · rintro _ s' ⟨e, he⟩
      exact ⟨[e], he.grew, .cons he.same hanew .nil .nil, e, List.mem_cons_self, he.done⟩

/-- The instances are told apart by their identities, or one did not answer. -/
theorem ends_lightningNodeIds : ∀ {l : List String}, (∀ a ∈ l, a ∈ nodes.instances) →
    ∀ s : World × Network,
      Ends (nodes.network crates) () (lightningNodeIds crates nodes.envId l)
        (fun ids s' => ids = l.map (fun a => (a, nodes.nodeId a)) ∧
          ∃ new, Extends s.2 s'.2 new ∧ ∀ e ∈ new, ∃ a, e.command = .getinfo a)
        (fun _ s' => ∃ new, Extends s.2 s'.2 new ∧ (∀ e ∈ new, ∃ a, e.command = .getinfo a) ∧
          ∃ e ∈ new, e.done = false) s
  | [], _, s => ends_pure ⟨rfl, [], .refl _, nofun⟩
  | a :: l, hl, s => by
    obtain ⟨ha, hl⟩ := List.forall_mem_cons.1 hl
    rw [lightningNodeIds]
    refine Ends.bind ((ends_lightningNodeId ha).mono ?_ ?_)
    · rintro id s₁ ⟨rfl, e, he⟩
      refine Ends.bind ((ends_lightningNodeIds hl s₁).mono ?_ ?_)
      · rintro ids s' ⟨rfl, new, hgrew, hnew⟩
        exact ends_pure ⟨rfl, e :: new, he.grew.trans hgrew, List.forall_mem_cons.2 ⟨⟨a, he.same⟩, hnew⟩⟩
      · rintro _ s' ⟨new, hgrew, hnew, e', he', hfailed⟩
        exact ⟨e :: new, he.grew.trans hgrew, List.forall_mem_cons.2 ⟨⟨a, he.same⟩, hnew⟩, e',
          List.mem_cons_of_mem _ he', hfailed⟩
    · rintro _ s' ⟨e, he⟩
      exact ⟨[e], he.grew, fun e' he' => ⟨a, List.mem_singleton.1 he' ▸ he.same⟩, e,
        List.mem_cons_self, he.done⟩

theorem connected_of_pairs {new : List Entry} (h : pairs new = []) : connected new = 0 := by
  unfold connected
  rw [List.length_eq_zero_iff, List.filter_eq_nil_iff]
  intro e he hconnected
  obtain ⟨z, hz⟩ := Option.isSome_iff_exists.1 (Bool.and_eq_true_iff.1 hconnected).1
  have hmem : z ∈ pairs new := List.mem_filterMap.2 ⟨e, he, hz⟩
  rw [h] at hmem
  cases hmem

/-- A mesh task leaves every two instances peered, or a command failed. -/
theorem ends_meshLightningPeers (s : World × Network) :
    Ends (nodes.network crates) () (meshLightningPeers crates nodes.envId nodes.instances)
      (fun n s' => ∃ new, Extends s.2 s'.2 new ∧ Rounds nodes.instances new ∧ n = connected new ∧
        nodes.instances.Pairwise fun a b => s(a, b) ∈ s'.2.peers)
      (fun _ s' => ∃ new, Extends s.2 s'.2 new ∧ Rounds nodes.instances new ∧ ∃ e ∈ new, e.done = false)
      s := by
  unfold meshLightningPeers
  split
  · next hfew =>
    refine ends_pure ⟨[], .refl _, .nil, rfl, ?_⟩
    match hinstances : nodes.instances with
    | [] => exact .nil
    | [a] => exact List.pairwise_singleton _ _
    | a :: b :: l =>
      rw [hinstances, List.length_cons, List.length_cons] at hfew
      omega
  · refine Ends.bind ((ends_lightningNodeIds (fun _ ha => ha) s).mono ?_ ?_)
    · rintro ids s₁ ⟨rfl, new, hgrew, hnew⟩
      refine (ends_meshInstances (fun _ ha => ha) nodes.distinct 0 s₁).mono ?_ ?_
      · rintro n s' ⟨new', hgrew', hrounds, rfl, hpairs⟩
        refine ⟨new ++ new', hgrew.trans hgrew', hrounds.after hnew, ?_, hpairs⟩
        rw [connected_append, connected_of_pairs (pairs_of_getinfo hnew)]
      · rintro _ s' ⟨new', hgrew', hrounds, e, he, hfailed⟩
        exact ⟨new ++ new', hgrew.trans hgrew', hrounds.after hnew, e, List.mem_append_right _ he, hfailed⟩
    · rintro _ s' ⟨new, hgrew, hnew, e, he, hfailed⟩
      have hrounds : Rounds nodes.instances (new ++ []) := Rounds.nil.after hnew
      rw [List.append_nil] at hrounds
      exact ⟨new, hgrew, hrounds, e, he, hfailed⟩

end

/-! ## The mesh -/

/-- The first entry of a kind has seen no more peers than the others. -/
theorem find?_first {new : List Entry} (h : new.Pairwise fun e e' => e.peers ⊆ e'.peers)
    {p : Entry → Bool} {e : Entry} (he : e ∈ new) (hp : p e = true) :
    ∃ first, new.find? p = some first ∧ first.peers ⊆ e.peers := by
  induction new with
  | nil => cases he
  | cons e' new ih =>
    obtain ⟨hfirst, h⟩ := List.pairwise_cons.1 h
    by_cases hp' : p e' = true
    · refine ⟨e', List.find?_cons_of_pos hp', ?_⟩
      rcases List.mem_cons.1 he with rfl | he
      · exact List.Subset.refl _
      · exact hfirst e he
    · rcases List.mem_cons.1 he with rfl | he
      · exact absurd hp hp'
      · obtain ⟨first, hfind, hsubset⟩ := ih h he
        exact ⟨first, (List.find?_cons_of_neg hp').trans hfind, hsubset⟩

/-- The entry asks a node for its peers. -/
def Entry.lists (e : Entry) : Bool :=
  match e.command with
  | .listpeers _ => true
  | _ => false

/-- What a mesh task that reports `initiated` new connections has done. -/
structure Meshed (nodes : Nodes) (n n' : Network) (new : List Entry) (initiated : Nat) : Prop where
  log : n'.log = n.log ++ new
  peered : ∀ a ∈ nodes.instances, ∀ b ∈ nodes.instances, a ≠ b → s(a, b) ∈ n'.peers
  once : (pairs new).Nodup
  unpeered : ∀ e ∈ new, ∀ a b, e.command = .connect a b →
    (∃ e', new.find? (fun e' => e'.command = .listpeers a) = some e' ∧ s(a, b) ∉ e'.peers) ∧
      ∃ e', new.find? Entry.lists = some e' ∧ s(a, b) ∉ e'.peers
  count : initiated = connected new

/-- **The mesh.** When a mesh task succeeds, every two instances are peered, connect was
called at most once for a pair and never for one that was peered when the peers were
read, and the result is the number of connects that succeeded. Another task after it
calls no connect, and returns zero unless a node does not answer. -/
theorem meshLightningPeers_meshes {nodes : Nodes} {crates : Crates} {s s' : World × Network}
    {initiated : Nat} (h : Runs (nodes.network crates) ()
      (meshLightningPeers crates nodes.envId nodes.instances).run s (.ok initiated) s') :
    ∃ new, Meshed nodes s.2 s'.2 new initiated ∧ ∀ r s'', Runs (nodes.network crates) ()
      (meshLightningPeers crates nodes.envId nodes.instances).run s' r s'' →
        ∃ new', s''.2.log = s'.2.log ++ new' ∧ pairs new' = [] ∧ (r = .ok 0 ∨ ∃ e ∈ new', e.done = false) := by
  obtain ⟨new, hgrew, hrounds, hcount, hpairs⟩ := ends_meshLightningPeers s _ _ h
  have hsymm : Std.Symm fun a b : String => s(a, b) ∈ s'.2.peers :=
    ⟨fun a b hab => (Sym2.eq_swap : s(b, a) = s(a, b)) ▸ hab⟩
  have hpeered : ∀ a ∈ nodes.instances, ∀ b ∈ nodes.instances, a ≠ b → s(a, b) ∈ s'.2.peers :=
    fun a ha b hb hne => hpairs.forall ha hb hne
  have hquiet : ∀ {new' : List Entry} {s'' : World × Network}, Extends s'.2 s''.2 new' → Rounds nodes.instances new' → pairs new' = [] := by
    intro new' s'' hgrew' hrounds'
    refine List.eq_nil_iff_forall_not_mem.2 fun z hz => ?_
    obtain ⟨e, he, a, b, hcommand, -⟩ := mem_pairs_iff.1 hz
    obtain ⟨ha, hb, hne, e', he', -, hunpeered⟩ := hrounds'.only e he a b hcommand
    exact hunpeered ((hgrew'.entries e' he').1 (hpeered a ha b hb hne))
  refine ⟨new, ⟨hgrew.log, hpeered, hrounds.once, fun e he a b hcommand => ?_, hcount⟩, fun r s'' hr => ?_⟩
  · obtain ⟨-, -, -, e', he', hlist, hunpeered⟩ := hrounds.only e he a b hcommand
    refine ⟨?_, ?_⟩
    · obtain ⟨first, hfind, hsubset⟩ := find?_first hgrew.grows
        (p := fun e' => e'.command = .listpeers a) he' (decide_eq_true hlist)
      exact ⟨first, hfind, fun hmem => hunpeered (hsubset hmem)⟩
    · have hlists : e'.lists = true := by
        unfold Entry.lists
        rw [hlist]
      obtain ⟨first, hfind, hsubset⟩ := find?_first hgrew.grows he' hlists
      exact ⟨first, hfind, fun hmem => hunpeered (hsubset hmem)⟩
  · have hends := ends_meshLightningPeers s' r s'' hr
    cases r with
    | ok m =>
      obtain ⟨new', hgrew', hrounds', rfl, -⟩ := hends
      have hnone := hquiet hgrew' hrounds'
      refine ⟨new', hgrew'.log, hnone, .inl ?_⟩
      rw [connected_of_pairs hnone]
    | error error =>
      obtain ⟨new', hgrew', hrounds', hfailed⟩ := hends
      exact ⟨new', hgrew'.log, hquiet hgrew' hrounds', .inr hfailed⟩

/-! ## Two nodes -/

theorem find?_of_inj {l : List String} {f : String → String} {a : String} (ha : a ∈ l)
    (hinj : ∀ b ∈ l, f b = f a → b = a) : l.find? (fun b => f b = f a) = some a := by
  cases hfind : l.find? fun b => f b = f a with
  | none =>
    have hnone := List.find?_eq_none.1 hfind a ha
    exact absurd (decide_eq_true rfl) hnone
  | some b =>
    have hb : f b = f a := by simpa using List.find?_some hfind
    rw [hinj b (List.mem_of_find?_eq_some hfind) hb]

/-- What stands behind the `@` of an address. -/
def addressRest (b : String) : List Char := "lnd-".toList ++ (b.toList ++ ":9735".toList)

theorem peerAddress_toList (id b : String) : (peerAddress id b).toList =
    id.toList ++ '@' :: addressRest b := by
  change (id ++ "@lnd-" ++ b ++ ":9735").toList = _
  simp [addressRest]

theorem mem_addressRest {b : String} (h : '@' ∉ b.toList) : '@' ∉ addressRest b := by
  simp [addressRest, h]

/-- Instances whose names have no `@` have different addresses. -/
theorem peerAddress_inj {id id' b b' : String} (hb : '@' ∉ b.toList) (hb' : '@' ∉ b'.toList)
    (h : peerAddress id b = peerAddress id' b') : b = b' := by
  have hrest : ∀ {b : String} (front : List Char), '@' ∉ b.toList →
      (front ++ '@' :: addressRest b).reverse.takeWhile (· ≠ '@') = (addressRest b).reverse := by
    intro b front hb
    have hall : ∀ c ∈ (addressRest b).reverse, decide (c ≠ '@') = true := fun c hc =>
      decide_eq_true fun he => mem_addressRest hb (he ▸ List.mem_reverse.1 hc)
    rw [List.reverse_append, List.reverse_cons, List.append_assoc, List.takeWhile_append_of_pos hall,
      List.singleton_append, List.takeWhile_cons_of_neg (by decide), List.append_nil]
  have hlist := congrArg String.toList h
  rw [peerAddress_toList, peerAddress_toList] at hlist
  have hsame := congrArg (fun l : List Char => l.reverse.takeWhile (· ≠ '@')) hlist
  rw [hrest _ hb, hrest _ hb', List.reverse_inj] at hsame
  unfold addressRest at hsame
  rw [List.append_cancel_left_eq, List.append_cancel_right_eq] at hsame
  exact String.toList_inj.1 hsame

theorem lndPodName_inj {a b : String} (h : lndPodName a = lndPodName b) : a = b := by
  have hlist : ∀ a : String, (lndPodName a).toList = "lnd-".toList ++ (a.toList ++ "-0".toList) := by
    intro a
    change ("lnd-" ++ a ++ "-0").toList = _
    simp
  have hsame := congrArg String.toList h
  rw [hlist, hlist, List.append_cancel_left_eq, List.append_cancel_right_eq] at hsame
  exact String.toList_inj.1 hsame

/-- The nodes of instances without `@` in their names, as all valid names are. -/
def Nodes.ofNames (envId : String) (instances : List String) (nodeId : String → String)
    (distinct : instances.Nodup) (names : ∀ b ∈ instances, '@' ∉ b.toList) : Nodes where
  envId := envId
  instances := instances
  nodeId := nodeId
  ofPod pod := instances.find? fun a => lndPodName a = pod
  ofAddress address := instances.find? fun b => peerAddress (nodeId b) b = address
  distinct := distinct
  ofPod_eq _ ha := find?_of_inj ha fun _ _ h => lndPodName_inj h
  ofAddress_eq b hb := find?_of_inj (f := fun b => peerAddress (nodeId b) b) hb fun b' hb' h =>
    peerAddress_inj (names b' hb') (names b hb) h

/-- Two instances. -/
def sampleNodes : Nodes :=
  .ofNames "1" ["alice", "bob"] (fun a => if a = "alice" then "02" else "03") (by decide) (by decide)

/-- Crates that read a byte as the identity of a node or as a list of its peers. -/
def sampleCrates : Crates where
  toRfc3339 := toString
  parseFromRfc3339 := fun _ => none
  sha256 := fun _ => []
  parseJson
    | [2] => .ok (.object [("identity_pubkey", .string "02")])
    | [3] => .ok (.object [("identity_pubkey", .string "03")])
    | [12] => .ok (.object [("peers", .array [.object [("pub_key", .string "02")]])])
    | [13] => .ok (.object [("peers", .array [.object [("pub_key", .string "03")]])])
    | _ => .ok (.object [("peers", .array [])])
  parseAddress := fun _ => .error ""
  selfSigned := fun _ _ => .error ""
  signedBy := fun _ _ _ _ => .error ""

/-- A command that succeeds with this output, while nobody else connects. -/
def printed (byte : UInt8) : Choice × List (Sym2 String) :=
  ({ output := { stdout := some (.ok [byte]), status := some "Success" } }, [])

def sampleNetwork : World × Network := (⟨Db.empty, ⟨[], List.nodup_nil⟩, []⟩, ⟨[], []⟩)

/-- The mesh task of the two instances, under these outputs. -/
def sampleMesh (choices : List (Choice × List (Sym2 String))) (s : World × Network) :
    Option (Except OrchestrateError Nat × World × Network) :=
  runAlone (sampleNodes.network sampleCrates) () choices
    (meshLightningPeers sampleCrates sampleNodes.envId sampleNodes.instances).run s

/-- The outputs of a first task, which connects the two. -/
def firstOutputs : List (Choice × List (Sym2 String)) :=
  [printed 2, printed 3, printed 0, printed 0, printed 12]

theorem meshLightningPeers_sample : ∃ s' new, Runs (sampleNodes.network sampleCrates) ()
    (meshLightningPeers sampleCrates sampleNodes.envId sampleNodes.instances).run sampleNetwork (.ok 1) s' ∧
      Meshed sampleNodes sampleNetwork.2 s'.2 new 1 := by
  have hplay : (sampleMesh firstOutputs sampleNetwork).map (·.1) = some (.ok 1) := by decide +kernel
  obtain ⟨⟨r, s'⟩, hrun, rfl⟩ := Option.map_eq_some_iff.1 hplay
  have h := runs_of_runAlone hrun
  obtain ⟨new, hmeshed, -⟩ := meshLightningPeers_meshes h
  exact ⟨s', new, h, hmeshed⟩

/-- A second task returns an error when a node does not answer it. -/
theorem second_mesh_fails : ¬∀ (nodes : Nodes) (crates : Crates) (s s' : World × Network) (initiated : Nat),
    Runs (nodes.network crates) () (meshLightningPeers crates nodes.envId nodes.instances).run s
      (.ok initiated) s' → ∀ r s'', Runs (nodes.network crates) ()
        (meshLightningPeers crates nodes.envId nodes.instances).run s' r s'' → r = .ok 0 := by
  intro h
  have hplay : (sampleMesh firstOutputs sampleNetwork).any (fun first => first.1 = .ok 1 ∧
      (sampleMesh [({}, [])] first.2).any fun second => second.1 ≠ .ok 0) = true := by decide +kernel
  obtain ⟨⟨r, s'⟩, hfirst, hplay⟩ := (Option.any_eq_true _ _).1 hplay
  obtain ⟨rfl, hplay⟩ := of_decide_eq_true hplay
  obtain ⟨⟨r', s''⟩, hsecond, hplay⟩ := (Option.any_eq_true _ _).1 hplay
  exact of_decide_eq_true hplay (h _ _ _ _ _ (runs_of_runAlone hfirst) _ _ (runs_of_runAlone hsecond))

end SignetSandbox
