import SignetSandbox.Api.Verify.Lifecycle
import SignetSandbox.Api.Verify.Names

/-!
# One create that fails

Adding Lightning instances while a single create fails (`Strike`), before or after
its effect. The instances before it stay applied, the one it hits stays applied in
part, and nothing is taken back.
-/

namespace SignetSandbox

open Interleave Prog

/-- A create that fails: of which object, and how. -/
structure Strike where
  key : Key
  fault : Fault KubeError

deriving instance DecidableEq for Fault

/-- The fault that an operation meets. -/
def faultOf (strike : Option Strike) : Op → Option (Fault KubeError)
  | .kube (.create obj) => strike.bind fun s => if s.key = obj.key then some s.fault else none
  | _ => none

/-- Nothing fails but the struck create, and key pairs can be generated. -/
def Under (strike : Option Strike) (c : Choice) (op : Op) (_ : World) : Prop :=
  c.dbFault.isNone = true ∧ c.keyPair.toBool = true ∧ c.kubeFault = faultOf strike op

instance (strike : Option Strike) (c : Choice) (op : Op) (w : World) :
    Decidable (Under strike c op w) :=
  inferInstanceAs (Decidable (_ ∧ _ ∧ _))

/-! ## What a stretch of creates leaves -/

/-- No table has changed, and nothing has gone from the cluster. -/
structure Grew (w w' : World) : Prop where
  db : w'.db = w.db
  there : ∀ k, w.cluster.Exists k → w'.cluster.Exists k
  active : ∀ ns, w.cluster.Active ns → w'.cluster.Active ns

/-- No lightning port is exposed that was not before, and there are no new objects
but secrets. -/
structure Quietly (w w' : World) : Prop where
  grew : Grew w w'
  exposed : ∀ o' ∈ w'.cluster.objects, o'.lndExposure? = none ∨
    ∃ o ∈ w.cluster.objects, o'.key = o.key ∧ o'.lndExposure? = o.lndExposure?
  only : ∀ k, w'.cluster.Exists k → w.cluster.Exists k ∨ k.kind = .secret

/-- The object is new. -/
structure Added (obj : KubeObject) (w w' : World) : Prop where
  fresh : ¬w.cluster.Exists obj.key
  objects : w'.cluster.objects = w.cluster.objects ++ [obj]
  db : w'.db = w.db

section Relations

variable {w w' w'' : World} {obj : KubeObject}

theorem Grew.refl (w : World) : Grew w w := ⟨rfl, fun _ h => h, fun _ h => h⟩

theorem Grew.trans (h : Grew w w') (h' : Grew w' w'') : Grew w w'' where
  db := h'.db.trans h.db
  there k hk := h'.there k (h.there k hk)
  active ns hns := h'.active ns (h.active ns hns)

theorem Quietly.refl (w : World) : Quietly w w where
  grew := Grew.refl w
  exposed o ho := .inr ⟨o, ho, rfl, rfl⟩
  only _ hk := .inl hk

theorem Quietly.trans (h : Quietly w w') (h' : Quietly w' w'') : Quietly w w'' where
  grew := h.grew.trans h'.grew
  exposed o ho := by
    rcases h'.exposed o ho with hnone | ⟨o', ho', hkey, hsame⟩
    · exact .inl hnone
    · rcases h.exposed o' ho' with hnone | ⟨o'', ho'', hkey', hsame'⟩
      · exact .inl (hsame.trans hnone)
      · exact .inr ⟨o'', ho'', hkey.trans hkey', hsame.trans hsame'⟩
  only k hk := by
    rcases h'.only k hk with hk | hsecret
    · exact h.only k hk
    · exact .inr hsecret

theorem Added.exists_iff (h : Added obj w w') {k : Key} :
    w'.cluster.Exists k ↔ w.cluster.Exists k ∨ k = obj.key := by
  unfold Cluster.Exists
  rw [h.objects]
  constructor
  · rintro ⟨o, ho, rfl⟩
    rcases List.mem_append.1 ho with ho | ho
    · exact .inl ⟨o, ho, rfl⟩
    · exact .inr (congrArg _ (List.mem_singleton.1 ho))
  · rintro (⟨o, ho, hk⟩ | rfl)
    · exact ⟨o, List.mem_append_left _ ho, hk⟩
    · exact ⟨obj, List.mem_append_right _ (List.mem_singleton_self _), rfl⟩

theorem Added.grew (h : Added obj w w') : Grew w w' where
  db := h.db
  there _ hk := h.exists_iff.2 (.inl hk)
  active ns := by
    rintro ⟨o, ho, hname⟩
    exact ⟨o, h.objects ▸ List.mem_append_left _ ho, hname⟩

theorem Added.quietly (h : Added obj w w') (hsecret : obj.key.kind = .secret)
    (hnone : obj.lndExposure? = none) : Quietly w w' where
  grew := h.grew
  exposed o ho := by
    rw [h.objects, List.mem_append, List.mem_singleton] at ho
    rcases ho with ho | rfl
    · exact .inr ⟨o, ho, rfl, rfl⟩
    · exact .inl hnone
  only k hk := by
    rcases h.exists_iff.1 hk with hk | rfl
    · exact .inl hk
    · exact .inr hsecret

end Relations

/-! ## One create -/

/-- The create was struck; where that was after its effect, the object is there. -/
structure Struck (strike : Option Strike) (obj : KubeObject) (w w' : World) : Prop where
  hit : ∃ s, strike = some s ∧ s.key = obj.key ∧ (s.fault.applied = false → w' = w) ∧
    (s.fault.applied = true → w'.cluster.Exists obj.key)
  before : w' = w ∨ Added obj w w'

/-- The strike does not hit this object. -/
def Missed (strike : Option Strike) (key : Key) : Prop := ∀ s, strike = some s → s.key ≠ key

/-- What a create in a namespace can come to. -/
inductive Outcome (strike : Option Strike) (ns : String) (obj : KubeObject) (w : World) :
    Except KubeError Unit → World → Prop
  | added {w' : World} (hactive : w.cluster.Active ns) (hmissed : Missed strike obj.key)
      (h : Added obj w w') : Outcome strike ns obj w (.ok ()) w'
  | taken (hactive : w.cluster.Active ns) (hmissed : Missed strike obj.key)
      (h : w.cluster.Exists obj.key) : Outcome strike ns obj w (.error (.api 409)) w
  | refused {e : KubeError} (he : e ≠ .api 409) (h : ¬w.cluster.Active ns) :
      Outcome strike ns obj w (.error e) w
  | struck {e : KubeError} {w' : World} (he : e ≠ .api 409) (hactive : w.cluster.Active ns)
      (h : Struck strike obj w w') : Outcome strike ns obj w (.error e) w'

section Creates

variable {strike : Option Strike} {ns : String} {obj : KubeObject} {w : World}

/-- In an active namespace the object is new, or its key is taken. -/
theorem added_or_taken (hns : obj.key.ns = some ns) (hactive : w.cluster.Active ns) :
    ((w.cluster.create obj).2 = .ok () ∧ Added obj w { w with cluster := (w.cluster.create obj).1 }) ∨
      (w.cluster.create obj = (w.cluster, .error (.api 409)) ∧ w.cluster.Exists obj.key) := by
  rw [Cluster.create_of_active hns hactive]
  split
  · next h => exact .inr ⟨rfl, h⟩
  · next h => exact .inl ⟨rfl, h, rfl, rfl⟩

theorem exec_create_under {c : Choice} (hns : obj.key.ns = some ns)
    (hposs : c.Possible (.kube (.create obj)) w) (hadm : Under strike c (.kube (.create obj)) w) :
    Outcome strike ns obj w (World.exec c (.kube (.create obj)) w).2
      (World.exec c (.kube (.create obj)) w).1 := by
  have hfault : c.kubeFault = strike.bind fun s => if s.key = obj.key then some s.fault else none :=
    hadm.2.2
  cases hc : c.kubeFault with
  | none =>
    have hmissed : Missed strike obj.key := by
      rintro s rfl hkey
      rw [hc, Option.bind_some, if_pos hkey] at hfault
      cases hfault
    obtain ⟨hreply, hworld⟩ := @World.kube_of_none c w (.create obj) hc
    change (World.exec c (.kube (.create obj)) w).2 = (w.cluster.create obj).2 at hreply
    change _ = { w with cluster := (w.cluster.create obj).1 } at hworld
    rw [hreply, hworld]
    by_cases hactive : w.cluster.Active ns
    · rcases added_or_taken hns hactive with ⟨hok, hadded⟩ | ⟨hcreate, htaken⟩
      · rw [hok]
        exact .added hactive hmissed hadded
      · rw [hcreate]
        exact .taken hactive hmissed htaken
    · obtain ⟨code, hcode, hcreate⟩ := Cluster.create_of_inactive hns hactive
      rw [hcreate]
      exact .refused (fun he => hcode (KubeError.api.inj he)) hactive
  | some f =>
    obtain ⟨-, hhonest⟩ := hposs.1 f hc
    obtain ⟨hreply, hworld⟩ := @World.kube_of_some c w (.create obj) f hc
    rw [hreply]
    have hhit : ∃ s, strike = some s ∧ s.key = obj.key ∧ s.fault = f := by
      rw [hc] at hfault
      obtain ⟨s, hs, hsome⟩ := Option.bind_eq_some_iff.1 hfault.symm
      split at hsome
      · next hkey => exact ⟨s, hs, hkey, Option.some.inj hsome⟩
      · cases hsome
    obtain ⟨s, hs, hkey, rfl⟩ := hhit
    by_cases hactive : w.cluster.Active ns
    · refine .struck hhonest hactive ⟨⟨s, hs, hkey, fun ha => ?_, fun ha => ?_⟩, ?_⟩
      · rw [hworld, ha, if_neg Bool.false_ne_true]
      · rw [hworld, ha, if_pos rfl]
        change (w.cluster.create obj).1.Exists obj.key
        rcases added_or_taken hns hactive with ⟨-, hadded⟩ | ⟨hcreate, htaken⟩
        · exact hadded.exists_iff.2 (.inr rfl)
        · rw [hcreate]
          exact htaken
      · rw [hworld]
        split
        · change { w with cluster := (w.cluster.create obj).1 } = w ∨
            Added obj w { w with cluster := (w.cluster.create obj).1 }
          rcases added_or_taken hns hactive with ⟨-, hadded⟩ | ⟨hcreate, -⟩
          · exact .inr hadded
          · rw [hcreate]
            exact .inl rfl
        · exact .inl rfl
    · have hsame : (World.exec c (.kube (.create obj)) w).1 = w := by
        obtain ⟨code, -, hcreate⟩ := Cluster.create_of_inactive hns hactive
        rw [hworld]
        split
        · change { w with cluster := (w.cluster.create obj).1 } = w
          rw [hcreate]
        · rfl
      rw [hsame]
      exact .refused hhonest hactive

end Creates

/-! ## One instance -/

def lndSecretKey (ns : String) (inst : LightningInstance) : Key :=
  ⟨.secret, some ns, s!"lnd-{inst.name}-tls"⟩

def lndServiceKey (ns : String) (inst : LightningInstance) : Key :=
  ⟨.service, some ns, s!"lnd-{inst.name}"⟩

/-- The objects of an instance that are not tolerated when they are there already. -/
def lndPlain (ns : String) (inst : LightningInstance) : List Key := (lndKeys ns inst).tail

/-- The strike leaves nothing that a later attempt would find in its way. -/
def Strike.Harmless (s : Strike) (ns : String) (inst : LightningInstance) : Prop :=
  s.key = lndSecretKey ns inst ∨ (s.key = lndServiceKey ns inst ∧ s.fault.applied = false)

/-- The names of the instance can stand in its certificate. -/
def Named (orch : Orchestrator) (ns : String) (inst : LightningInstance) : Prop :=
  ∃ sans, subjectAltNames inst.name ns orch.lnHost = .ok sans

/-- The secret of an instance is there, and these of its plain objects have been
created. -/
structure Underway (strike : Option Strike) (ns : String) (created : List Key) (w w' : World) : Prop where
  active : w.cluster.Active ns
  missed : ∀ k ∈ created, Missed strike k
  free : ∀ k ∈ created, ¬w.cluster.Exists k
  grew : Grew w w'
  there : ∀ k ∈ created, w'.cluster.Exists k
  only : ∀ k, w'.cluster.Exists k → w.cluster.Exists k ∨ k ∈ created ∨ k.kind = .secret
  quietly : created = [] → Quietly w w'

/-- The instance has been applied, to where it was not. -/
structure Applied (orch : Orchestrator) (strike : Option Strike) (ns : String) (inst : LightningInstance)
    (w w' : World) : Prop extends Underway strike ns (lndPlain ns inst) w w' where
  named : Named orch ns inst
  secret : Missed strike (lndSecretKey ns inst)

/-- The instance could not have been applied anyway. -/
def Blocked (orch : Orchestrator) (crates : Crates) (ns : String) (inst : LightningInstance) (w : World) :
    Prop :=
  (Signs crates → ¬Named orch ns inst) ∨ ¬w.cluster.Active ns ∨
    ∃ k ∈ lndPlain ns inst, w.cluster.Exists k

/-- The instance has been applied in part. -/
structure Halted (orch : Orchestrator) (crates : Crates) (strike : Option Strike) (ns : String)
    (inst : LightningInstance) (w w' : World) : Prop where
  grew : Grew w w'
  why : Blocked orch crates ns inst w ∨ ∃ s, strike = some s ∧
    ((s.Harmless ns inst ∧ Quietly w w') ∨
      (¬s.Harmless ns inst ∧ w'.cluster.Exists (lndServiceKey ns inst)))

section Instance

variable {orch : Orchestrator} {crates : Crates} {strike : Option Strike} {ns : String}
  {inst : LightningInstance} {images : BTreeMap String String} {w w1 w' : World}

theorem kind_of_mem_lndPlain {k : Key} (h : k ∈ lndPlain ns inst) : k.kind ≠ .secret := by
  simp only [lndPlain, lndKeys, List.tail_cons, List.mem_cons, List.not_mem_nil, or_false] at h
  intro hsecret
  rcases h with rfl | rfl | rfl <;> cases hsecret

theorem Struck.grew {obj : KubeObject} (h : Struck strike obj w w') : Grew w w' := by
  rcases h.before with rfl | hadded
  · exact Grew.refl _
  · exact hadded.grew

theorem ends_create_under {obj : KubeObject} {Q : Unit → World → Prop}
    {R : OrchestrateError → World → Prop} (hns : obj.key.ns = some ns)
    (hok : ∀ w', w.cluster.Active ns → Missed strike obj.key → Added obj w w' → Q () w')
    (herr : ∀ e w', Outcome strike ns obj w (.error e) w' → R (.kube e) w') :
    Ends (alone (Under strike)) () (Orch.kube (.create obj)) Q R w := by
  refine ends_kube fun c hposs hadm => ?_
  have ho := exec_create_under hns hposs hadm
  generalize (World.exec c (.kube (.create obj)) w).1 = w' at ho ⊢
  generalize (World.exec c (.kube (.create obj)) w).2 = r at ho ⊢
  constructor
  · rintro a rfl
    cases ho with
    | added hactive hmissed h => exact hok w' hactive hmissed h
  · rintro e rfl
    exact herr e w' ho

theorem keepExisting_of_ne {e : KubeError} (he : e ≠ .api 409) :
    Orchestrator.keepExisting (.error e) = .error (.kube e) := by
  unfold Orchestrator.keepExisting
  split
  · next h => cases h
  · next h => exact absurd (Except.error.inj h) he
  · next e' h => rw [Except.error.inj h]

/-- A secret that is there already is as good as a new one. -/
theorem applyLndTlsSecret_under {tls : InstanceTls} {Q : Unit → World → Prop}
    {R : OrchestrateError → World → Prop}
    (hok : ∀ w', w.cluster.Active ns → Missed strike (lndSecretKey ns inst) → Quietly w w' → Q () w')
    (hinactive : ¬w.cluster.Active ns → ∀ e, R e w)
    (hstruck : ∀ s w' e, strike = some s → s.key = lndSecretKey ns inst → Quietly w w' → R e w') :
    Ends (alone (Under strike)) () (Orchestrator.applyLndTlsSecret ns inst.name tls) Q R w := by
  refine wp_call.2 fun c hc => ?_
  have hquietly : ∀ w', Added (Orchestrator.lndTlsSecret ns inst.name tls) w w' → Quietly w w' :=
    fun w' h => h.quietly rfl rfl
  have hns : (Orchestrator.lndTlsSecret ns inst.name tls).key.ns = some ns := rfl
  have ho := exec_create_under hns hc.1 hc.2
  change Wp (alone (Under strike)) () (.ret (Orchestrator.keepExisting
    (World.exec c (.kube (.create (Orchestrator.lndTlsSecret ns inst.name tls))) w).2)) _
    (World.exec c (.kube (.create (Orchestrator.lndTlsSecret ns inst.name tls))) w).1
  rw [wp_ret]
  generalize (World.exec c (.kube (.create (Orchestrator.lndTlsSecret ns inst.name tls))) w).1 = w' at ho ⊢
  generalize (World.exec c (.kube (.create (Orchestrator.lndTlsSecret ns inst.name tls))) w).2 = r at ho ⊢
  cases ho with
  | added hactive hmissed h => exact hok w' hactive hmissed (hquietly w' h)
  | taken hactive hmissed h => exact hok w hactive hmissed (Quietly.refl w)
  | @refused e he h =>
    rw [keepExisting_of_ne he]
    exact hinactive h _
  | @struck e _ he hactive h =>
    obtain ⟨s, hs, hkey, -⟩ := h.hit
    rw [keepExisting_of_ne he]
    refine hstruck s w' _ hs hkey ?_
    rcases h.before with rfl | hadded
    · exact Quietly.refl _
    · exact hquietly w' hadded

/-- The next plain object is created, or the instance halts. -/
theorem create_underway {obj : KubeObject} {created rest : List Key} (hns : obj.key.ns = some ns)
    (h : Underway strike ns created w w1) (hsplit : lndPlain ns inst = created ++ obj.key :: rest) :
    Ends (alone (Under strike)) () (Orch.kube (.create obj))
      (fun _ => Underway strike ns (created ++ [obj.key]) w)
      (fun _ => Halted orch crates strike ns inst w) w1 := by
  have hmem : obj.key ∈ lndPlain ns inst := hsplit ▸ List.mem_append_right _ List.mem_cons_self
  have hnodup : (created ++ obj.key :: rest).Nodup := hsplit ▸ (lndKeys_nodup ns inst).tail
  have hnew : obj.key ∉ created := fun hk =>
    (List.nodup_append.1 hnodup).2.2 _ hk _ List.mem_cons_self rfl
  refine ends_create_under hns (fun w2 _ hmissed hadded => ?_) fun e w2 ho => ?_
  · refine ⟨h.active, fun k hk => ?_, fun k hk => ?_, h.grew.trans hadded.grew, fun k hk => ?_,
      fun k hk => ?_, fun hnil => absurd hnil (List.append_ne_nil_of_right_ne_nil _ (List.cons_ne_nil _ _))⟩
    · rcases List.mem_append.1 hk with hk | hk
      · exact h.missed k hk
      · exact List.mem_singleton.1 hk ▸ hmissed
    · rcases List.mem_append.1 hk with hk | hk
      · exact h.free k hk
      · exact List.mem_singleton.1 hk ▸ fun hold => hadded.fresh (h.grew.there _ hold)
    · rcases List.mem_append.1 hk with hk | hk
      · exact hadded.grew.there k (h.there k hk)
      · exact hadded.exists_iff.2 (.inr (List.mem_singleton.1 hk))
    · rw [List.mem_append, List.mem_singleton]
      rcases hadded.exists_iff.1 hk with hk | hk
      · exact (h.only k hk).imp_right (Or.imp_left .inl)
      · exact .inr (.inl (.inr hk))
  · cases ho with
    | taken hactive hmissed hthere =>
      refine ⟨h.grew, .inl (.inr (.inr ⟨_, hmem, (h.only _ hthere).resolve_right ?_⟩))⟩
      rintro (hold | hsecret)
      · exact hnew hold
      · exact kind_of_mem_lndPlain hmem hsecret
    | refused he hinactive => exact absurd (h.grew.active _ h.active) hinactive
    | struck he hactive hstruck =>
      obtain ⟨s, hs, hkey, hbefore, hafter⟩ := hstruck.hit
      refine ⟨h.grew.trans hstruck.grew, .inr ⟨s, hs, ?_⟩⟩
      cases created with
      | nil =>
        -- The service is the first object that a later attempt cannot step over.
        have hservice : obj.key = lndServiceKey ns inst := (List.cons.inj hsplit).1.symm
        cases happlied : s.fault.applied with
        | false =>
          rw [hbefore happlied]
          exact .inl ⟨.inr ⟨hkey.trans hservice, happlied⟩, h.quietly rfl⟩
        | true =>
          refine .inr ⟨?_, hservice ▸ hafter happlied⟩
          rintro (hsecret | ⟨-, hlost⟩)
          · exact kind_of_mem_lndPlain hmem (hkey ▸ congrArg Key.kind hsecret)
          · cases happlied.symm.trans hlost
      | cons k created =>
        have hservice : k = lndServiceKey ns inst := (List.cons.inj hsplit).1.symm
        refine .inr ⟨?_, hstruck.grew.there _ (h.there _ (hservice ▸ List.mem_cons_self))⟩
        rintro (hsecret | ⟨hown, -⟩)
        · exact kind_of_mem_lndPlain hmem (hkey ▸ congrArg Key.kind hsecret)
        · exact hnew ((hkey.symm.trans (hown.trans hservice.symm)) ▸ List.mem_cons_self)

/-- An instance is applied, or halts. -/
theorem applyLnd_under (restPort : Int) :
    Ends (alone (Under strike)) () (orch.applyLnd crates ns inst images restPort)
      (fun _ => Applied orch strike ns inst w) (fun _ => Halted orch crates strike ns inst w) w := by
  have hkeypair : ∀ c, Under strike c .generateKeyPair w → c.keyPair.toBool = true :=
    fun _ h => h.2.1
  refine Ends.bind ((generateInstanceTls_ends inst.name orch.lnHost).mono
    (fun tls w0 htls => ?_) fun e w0 htls => ?_)
  · obtain ⟨rfl, hnamed⟩ := htls
    refine Ends.bind (applyLndTlsSecret_under (fun w1 hactive hsecret hquiet => ?_)
      (fun hinactive e => ⟨Grew.refl _, .inl (.inr (.inl hinactive))⟩)
      fun s w' e hs hkey hquiet => ⟨hquiet.grew, .inr ⟨s, hs, .inl ⟨.inl hkey, hquiet⟩⟩⟩)
    have h1 : Underway strike ns [] w0 w1 :=
      ⟨hactive, nofun, nofun, hquiet.grew, nofun, fun k hk => (hquiet.only k hk).imp_right .inr,
        fun _ => hquiet⟩
    refine Ends.bind (Ends.mono (Q := fun _ => Underway strike ns ((lndPlain ns inst).take 2) w0) ?_
      (fun _ w3 h3 => ?_) fun _ _ h => h)
    · refine Ends.bind ((create_underway rfl h1 rfl).mono (fun _ w2 h2 => ?_) fun _ _ h => h)
      exact Ends.bind ((create_underway rfl h2 rfl).mono (fun _ w3 h3 => ends_pure h3) fun _ _ h => h)
    · exact (create_underway rfl h3 rfl).mono (fun _ w4 h4 => ⟨h4, hnamed, hsecret⟩) fun _ _ h => h
  · obtain ⟨rfl, -, hno⟩ := htls
    exact ⟨Grew.refl _, .inl (.inl (hno hkeypair))⟩

end Instance

/-! ## A list of instances -/

/-- Nothing is in the way of these instances. -/
structure Free (orch : Orchestrator) (ns : String) (instances : List LightningInstance) (w : World) :
    Prop where
  active : instances ≠ [] → w.cluster.Active ns
  named : ∀ inst ∈ instances, Named orch ns inst
  nodup : (instances.flatMap (lndPlain ns)).Nodup
  free : ∀ k ∈ instances.flatMap (lndPlain ns), ¬w.cluster.Exists k

section Instances

variable {orch : Orchestrator} {crates : Crates} {strike : Option Strike} {ns : String}
  {images : BTreeMap String String} {w w' : World} {inst : LightningInstance}
  {instances : List LightningInstance}

/-- An applied instance is in nobody's way but its own. -/
theorem free_cons_iff (h : Applied orch strike ns inst w w') :
    Free orch ns (inst :: instances) w ↔ Free orch ns instances w' := by
  have hplain : (lndPlain ns inst).Nodup := (lndKeys_nodup ns inst).tail
  constructor
  · intro hfree
    obtain ⟨-, hnodup, hdisjoint⟩ := List.nodup_append'.1 (List.flatMap_cons ▸ hfree.nodup)
    refine ⟨fun _ => h.grew.active _ h.active, fun i hi => hfree.named i (List.mem_cons_of_mem _ hi),
      hnodup, fun k hk hthere => ?_⟩
    rcases h.only k hthere with hold | hown | hsecret
    · exact hfree.free k (List.flatMap_cons ▸ List.mem_append_right _ hk) hold
    · exact hdisjoint hown hk
    · obtain ⟨i, -, hki⟩ := List.mem_flatMap.1 hk
      exact kind_of_mem_lndPlain hki hsecret
  · intro hfree
    refine ⟨fun _ => h.active, fun i hi => ?_, ?_, fun k hk hold => ?_⟩
    · rcases List.mem_cons.1 hi with rfl | hi
      · exact h.named
      · exact hfree.named i hi
    · rw [List.flatMap_cons, List.nodup_append']
      exact ⟨hplain, hfree.nodup, fun k hk hrest => hfree.free k hrest (h.there k hk)⟩
    · rw [List.flatMap_cons, List.mem_append] at hk
      rcases hk with hk | hk
      · exact h.free k hk hold
      · exact hfree.free k hk (h.grew.there k hold)

theorem not_free_of_blocked (hsigns : Signs crates) (h : Blocked orch crates ns inst w) :
    ¬Free orch ns (inst :: instances) w := by
  intro hfree
  rcases h with hno | hinactive | ⟨k, hk, hthere⟩
  · exact hno hsigns (hfree.named inst List.mem_cons_self)
  · exact hinactive (hfree.active (List.cons_ne_nil _ _))
  · exact hfree.free k (List.flatMap_cons ▸ List.mem_append_left _ hk) hthere

/-- Without a strike, a list is applied exactly when nothing is in its way. -/
theorem applyAll_clear (hsigns : Signs crates) (pairs : List (LightningInstance × Int)) :
    ∀ w, Ends (alone (Under none)) () (forM pairs fun (inst, restPort) =>
      orch.applyLnd crates ns inst images restPort) (fun _ _ => Free orch ns (pairs.map (·.1)) w)
        (fun _ _ => ¬Free orch ns (pairs.map (·.1)) w) w := by
  induction pairs with
  | nil => exact fun w => ends_pure ⟨fun h => absurd rfl h, nofun, List.nodup_nil, nofun⟩
  | cons pair pairs ih =>
    intro w
    refine Ends.bind ((applyLnd_under pair.2).mono (fun _ w1 h => ?_) fun e w1 h => ?_)
    · have hiff : Free orch ns (pair.1 :: pairs.map (·.1)) w ↔ Free orch ns (pairs.map (·.1)) w1 :=
        free_cons_iff h
      exact (ih w1).mono (fun _ _ hfree => hiff.2 hfree) fun _ _ hno hfree => hno (hiff.1 hfree)
    · rcases h.why with hblocked | ⟨s, hs, -⟩
      · exact not_free_of_blocked hsigns hblocked
      · cases hs

theorem applyAll_grew (pairs : List (LightningInstance × Int)) :
    ∀ w, Ends (alone (Under strike)) () (forM pairs fun (inst, restPort) =>
      orch.applyLnd crates ns inst images restPort) (fun _ => Grew w) (fun _ => Grew w) w := by
  induction pairs with
  | nil => exact fun w => ends_pure (Grew.refl w)
  | cons pair pairs ih =>
    intro w
    refine Ends.bind ((applyLnd_under pair.2).mono (fun _ w1 h => ?_) fun e w1 h => h.grew)
    exact (ih w1).mono (fun _ _ => h.grew.trans) fun _ _ => h.grew.trans

/-- What a list leaves that only the strike has stopped. -/
theorem applyAll_struck {s : Strike} (hsigns : Signs crates) {pair : LightningInstance × Int}
    {pairs : List (LightningInstance × Int)} (hfree : Free orch ns (pair.1 :: pairs.map (·.1)) w) :
    Ends (alone (Under (some s))) () (forM (pair :: pairs) fun (inst, restPort) =>
      orch.applyLnd crates ns inst images restPort) (fun _ _ => True)
        (fun _ w' => Grew w w' ∧ ((s.Harmless ns pair.1 ∧ Quietly w w') ∨
          (¬s.Harmless ns pair.1 ∧ w'.cluster.Exists (lndServiceKey ns pair.1)))) w := by
  refine Ends.bind ((applyLnd_under pair.2).mono (fun _ w1 h => ?_) fun e w1 h => ⟨h.grew, ?_⟩)
  · have hmissed : ¬s.Harmless ns pair.1 := by
      rintro (hkey | ⟨hkey, -⟩)
      · exact h.secret s rfl hkey
      · exact h.missed _ List.mem_cons_self s rfl hkey
    refine (applyAll_grew pairs w1).mono (fun _ _ _ => trivial) fun _ w2 hgrew => ?_
    exact ⟨h.grew.trans hgrew, .inr ⟨hmissed, hgrew.there _ (h.there _ List.mem_cons_self)⟩⟩
  · rcases h.why with hblocked | ⟨s', hs', hwhy⟩
    · exact absurd hfree (not_free_of_blocked hsigns hblocked)
    · cases hs'
      exact hwhy

/-! ## The wallet password -/

def walletKey (ns : String) : Key := ⟨.secret, some ns, SECRET_NAME⟩

/-- The same objects are there, with the same namespaces going away and the same
ports exposed. -/
structure Alike (w w' : World) : Prop where
  quietly : Quietly w w'
  there : ∀ k, w'.cluster.Exists k ↔ w.cluster.Exists k
  active : ∀ ns, w'.cluster.Active ns ↔ w.cluster.Active ns

theorem Alike.refl (w : World) : Alike w w := ⟨Quietly.refl w, fun _ => Iff.rfl, fun _ => Iff.rfl⟩

theorem Alike.free_iff (h : Alike w w') : Free orch ns instances w' ↔ Free orch ns instances w := by
  constructor
  · exact fun hfree => ⟨fun hne => (h.active ns).1 (hfree.active hne), hfree.named, hfree.nodup,
      fun k hk hthere => hfree.free k hk ((h.there k).2 hthere)⟩
  · exact fun hfree => ⟨fun hne => (h.active ns).2 (hfree.active hne), hfree.named, hfree.nodup,
      fun k hk hthere => hfree.free k hk ((h.there k).1 hthere)⟩

theorem alike_patchStringData {c : Choice} {key : Key} {entry : String × String}
    (hc : c.kubeFault = none) : Alike w (World.exec c (.kube (.patchStringData key entry)) w).1 := by
  have hworld := (@World.kube_of_none c w (.patchStringData key entry) hc).2
  change _ = { w with cluster := (w.cluster.patch key (Spec.setData entry)).1 } at hworld
  rw [hworld]
  have hthere : ∀ k, (w.cluster.patch key (Spec.setData entry)).1.Exists k ↔ w.cluster.Exists k := by
    intro k
    unfold Cluster.patch
    split
    · constructor
      · rintro ⟨o', ho', hk⟩
        obtain ⟨o, ho, rfl⟩ := (Cluster.mem_update (by intro; rfl)).1 ho'
        refine ⟨o, ho, Eq.trans ?_ hk⟩
        split <;> rfl
      · rintro ⟨o, ho, hk⟩
        refine ⟨_, (Cluster.mem_update (by intro; rfl)).2 ⟨o, ho, rfl⟩, Eq.trans ?_ hk⟩
        split <;> rfl
    · exact Iff.rfl
  have hgrew : Grew w { w with cluster := (w.cluster.patch key (Spec.setData entry)).1 } :=
    ⟨rfl, fun k hk => (hthere k).2 hk, fun _ hactive => Cluster.active_patch.2 hactive⟩
  refine ⟨⟨hgrew, fun o' ho' => .inr ?_, fun k hk => .inl ((hthere k).1 hk)⟩, hthere,
    fun _ => Cluster.active_patch⟩
  have hold := @Call.mem_of_run c.output c.text w.cluster (.patchStringData key entry) o' ho'
  rcases hold with ⟨o, ho, hkey, -, hsame⟩ | hcreate
  · exact ⟨o, ho, hkey, hsame⟩
  · cases hcreate

theorem ensureLndWalletPassword_under (password : String) :
    Ends (alone (Under strike)) () (Orchestrator.ensureLndWalletPassword ns password)
      (fun _ w' => w.cluster.Exists (walletKey ns) ∧ Alike w w')
      (fun _ _ => ¬w.cluster.Exists (walletKey ns)) w := by
  refine Ends.bind (ends_kube fun c _ hadm => ?_)
  have hc : c.kubeFault = none := hadm.2.2
  rw [World.exec_kubeReads (by trivial), (World.kube_of_none hc).1]
  constructor
  · intro secret hsecret
    obtain ⟨hmem, hkey⟩ := Cluster.mem_of_get hsecret
    have hthere : w.cluster.Exists (walletKey ns) := ⟨secret, hmem, hkey⟩
    split
    · exact ends_pure ⟨hthere, Alike.refl w⟩
    · refine ends_kube fun c' _ hadm' => ?_
      have hc' : c'.kubeFault = none := hadm'.2.2
      refine ⟨fun _ _ => ⟨hthere, alike_patchStringData hc'⟩, fun e he => ?_⟩
      rw [(World.kube_of_none hc').1] at he
      change (w.cluster.patch (walletKey ns) _).2 = _ at he
      unfold Cluster.patch at he
      rw [if_pos hthere] at he
      cases he
  · rintro e he ⟨o, ho, hkey⟩
    change w.cluster.get (walletKey ns) = .error e at he
    unfold Cluster.get at he
    split at he
    · cases he
    · next hnone => exact Cluster.find?_eq_none.1 hnone ⟨o, ho, hkey⟩

/-! ## Adding instances -/

/-- Without a strike, instances are added exactly when nothing is in the way. -/
theorem addLightningInstances_clear (hsigns : Signs crates) (short : String)
    (pairs : List (LightningInstance × Int)) (password : String) :
    Ends (alone (Under none)) () (orch.addLightningInstances crates short pairs images password)
      (fun _ _ => w.cluster.Exists (walletKey (namespaceFor short)) ∧
        Free orch (namespaceFor short) (pairs.map (·.1)) w)
      (fun _ _ => ¬(w.cluster.Exists (walletKey (namespaceFor short)) ∧
        Free orch (namespaceFor short) (pairs.map (·.1)) w)) w := by
  refine Ends.bind ((ensureLndWalletPassword_under password).mono (fun _ w1 h => ?_)
    fun e w1 hno hyes => hno hyes.1)
  obtain ⟨hwallet, halike⟩ := h
  refine (applyAll_clear hsigns pairs w1).mono (fun _ _ hfree => ⟨hwallet, halike.free_iff.1 hfree⟩) ?_
  exact fun _ _ hno hyes => hno (halike.free_iff.2 hyes.2)

/-- What a strike leaves of instances that nothing else is in the way of. -/
theorem addLightningInstances_struck {s : Strike} (hsigns : Signs crates) (short : String)
    {pair : LightningInstance × Int} {pairs : List (LightningInstance × Int)} (password : String)
    (hwallet : w.cluster.Exists (walletKey (namespaceFor short)))
    (hfree : Free orch (namespaceFor short) (pair.1 :: pairs.map (·.1)) w) :
    Ends (alone (Under (some s))) ()
      (orch.addLightningInstances crates short (pair :: pairs) images password) (fun _ _ => True)
        (fun _ w' => Grew w w' ∧ ((s.Harmless (namespaceFor short) pair.1 ∧ Quietly w w') ∨
          (¬s.Harmless (namespaceFor short) pair.1 ∧
            w'.cluster.Exists (lndServiceKey (namespaceFor short) pair.1)))) w := by
  refine Ends.bind ((ensureLndWalletPassword_under password).mono (fun _ w1 h => ?_)
    fun e w1 hno => absurd hwallet hno)
  obtain ⟨-, halike⟩ := h
  refine (applyAll_struck hsigns (halike.free_iff.2 hfree)).mono (fun _ _ _ => trivial) fun _ w' h => ?_
  obtain ⟨hgrew, hwhy⟩ := h
  refine ⟨halike.quietly.grew.trans hgrew, hwhy.imp_left fun hleft => ⟨hleft.1, ?_⟩⟩
  exact halike.quietly.trans hleft.2

end Instances

end SignetSandbox
