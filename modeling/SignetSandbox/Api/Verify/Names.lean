import Mathlib.Data.Bool.AllAny
import SignetSandbox.Api.Verify.Alone
import SignetSandbox.Api.Verify.Instances
import SignetSandbox.Api.Verify.Knowledge
import Mathlib.Data.List.Pairwise
import Mathlib.Data.String.Lemmas

/-!
# Names made from instance names

A Lightning instance becomes a secret, a stateful set and two services, named
after it. A name that `validate_lightning` accepts can still be too long for
that, or end in a hyphen; and the service of an instance `lb-x` is named like
the LoadBalancer service of `x`.
-/

namespace SignetSandbox

open Interleave Prog

/-! ## The objects of an instance -/

def lndLb (ns : String) (inst : LightningInstance) (restPort : Int) : KubeObject :=
  Orchestrator.loadBalancer ns s!"lnd-lb-{inst.name}" s!"lnd-{inst.name}"
    [⟨some "rest", restPort, 8080⟩, ⟨some "grpc", restPort + 1, 10009⟩,
     ⟨some "p2p", restPort + 2, 9735⟩]

/-- What `apply_lnd` creates, in its order. -/
def lndObjects (ns : String) (images : BTreeMap String String) (tls : InstanceTls)
    (inst : LightningInstance) (restPort : Int) : List KubeObject :=
  Orchestrator.lndTlsSecret ns inst.name tls ::
    (lndManifest inst).map (fun doc =>
      { key := ⟨doc.kind, some ns, doc.name⟩
        spec := doc.spec.patchImages (containerImages images) }) ++
    [lndLb ns inst restPort]

def lndKeys (ns : String) (inst : LightningInstance) : List Key :=
  [⟨.secret, some ns, s!"lnd-{inst.name}-tls"⟩, ⟨.service, some ns, s!"lnd-{inst.name}"⟩,
   ⟨.statefulSet, some ns, s!"lnd-{inst.name}"⟩, ⟨.service, some ns, s!"lnd-lb-{inst.name}"⟩]

theorem lndObjects_keys (ns : String) (images : BTreeMap String String) (tls : InstanceTls)
    (inst : LightningInstance) (restPort : Int) :
    (lndObjects ns images tls inst restPort).map (·.key) = lndKeys ns inst := rfl

/-- The object that an operation creates. -/
def Op.created? : Op → Option KubeObject
  | .kube (.create obj) => some obj
  | _ => none

/-- The objects that a program creates when its operations are answered as given. -/
def createdBy {α : Type} (answer : (op : Op) → op.Reply) (p : Api α) : List KubeObject :=
  (p.trace answer).filterMap Op.created?

theorem createdBy_bind {answer : (op : Op) → op.Reply} {α β : Type} {x : Orch α} {f : α → Orch β}
    {b : β} (h : (x >>= f).run.answered answer = .ok b) :
    ∃ a, x.run.answered answer = .ok a ∧ (f a).run.answered answer = .ok b ∧
      createdBy answer (x >>= f).run = createdBy answer x.run ++ createdBy answer (f a).run := by
  obtain ⟨a, hx, hf, htrace⟩ := answered_run_bind h
  refine ⟨a, hx, hf, ?_⟩
  rw [createdBy, htrace, List.filterMap_append]
  rfl

theorem createdBy_of_issues {answer : (op : Op) → op.Reply} {α : Type} {p : Api α}
    (h : p.Issues fun op => op.created? = none) : createdBy answer p = [] :=
  List.filterMap_eq_nil_iff.2 fun _ hop => h.of_mem_trace hop

section Created

variable {answer : (op : Op) → op.Reply} {self : Orchestrator} {crates : Crates} {ns : String}
  {images : BTreeMap String String}

theorem generateInstanceTls_creates_nothing (inst host : String) :
    (generateInstanceTls crates inst ns host).run.Issues fun op => op.created? = none := by
  have hkey : generateKeyPair.run.Issues fun op => op.created? = none := ⟨rfl, fun _ => trivial⟩
  refine (issues_liftExcept _).bindExcept fun sans => hkey.bindExcept fun caKey => ?_
  refine (issues_liftExcept _).bindExcept fun ca => hkey.bindExcept fun leafKey => ?_
  exact (issues_liftExcept _).bindExcept fun leaf => issues_pureExcept _

/-- An instance that was applied is made of its four objects. -/
theorem createdBy_applyLnd {inst : LightningInstance} {restPort : Int}
    (h : (self.applyLnd crates ns inst images restPort).run.answered answer = .ok ()) :
    ∃ tls, createdBy answer (self.applyLnd crates ns inst images restPort).run =
      lndObjects ns images tls inst restPort := by
  obtain ⟨tls, -, h, hc⟩ := createdBy_bind h
  obtain ⟨_, -, h, hc1⟩ := createdBy_bind h
  obtain ⟨_, hmanifest, -, hc2⟩ := createdBy_bind h
  obtain ⟨htrace, -⟩ := answered_forM hmanifest
  have htls := @createdBy_of_issues answer _ _
    (@generateInstanceTls_creates_nothing crates ns inst.name self.lnHost)
  have hdocs : createdBy answer (Orchestrator.applyManifest ns (lndManifest inst) images).run =
      (lndManifest inst).map fun doc =>
        { key := ⟨doc.kind, some ns, doc.name⟩
          spec := doc.spec.patchImages (containerImages images) } := by
    rw [createdBy, Orchestrator.applyManifest, htrace]
    rfl
  refine ⟨tls, hc.trans ?_⟩
  rw [htls, hc1, hc2, hdocs]
  rfl

/-- The keys of the objects of a list that was applied. -/
theorem createdBy_applyAll {pairs : List (LightningInstance × Int)}
    (h : (forM pairs fun (inst, restPort) =>
      self.applyLnd crates ns inst images restPort).run.answered answer = .ok ()) :
    (createdBy answer (forM pairs fun (inst, restPort) =>
      self.applyLnd crates ns inst images restPort).run).map (·.key) =
        (pairs.map (·.1)).flatMap (lndKeys ns) := by
  obtain ⟨htrace, heach⟩ := answered_forM h
  rw [createdBy, htrace]
  clear h htrace
  induction pairs with
  | nil => rfl
  | cons pair pairs ih =>
    obtain ⟨tls, hpair⟩ := createdBy_applyLnd (heach pair List.mem_cons_self)
    rw [List.flatMap_cons, List.filterMap_append, List.map_append,
      ih fun p hp => heach p (List.mem_cons_of_mem _ hp)]
    rw [createdBy] at hpair
    rw [hpair, lndObjects_keys]
    rfl

end Created

/-! ## Accepted names -/

/-- A lower-case letter or a digit. -/
def alnum (c : Char) : Bool := c.isLower || c.isDigit

theorem utf8Size_of_alnum {c : Char} (h : alnum c = true ∨ c = '-') : c.utf8Size = 1 := by
  have hlt : c.toNat ≤ 127 := by
    rcases h with h | rfl
    · have hlower : c.isLower = (decide (c.val ≥ 'a'.val) && decide (c.val ≤ 'z'.val)) := rfl
      simp only [alnum, Bool.or_eq_true, hlower, Char.isDigit, Bool.and_eq_true,
        decide_eq_true_eq, UInt32.le_iff_toNat_le] at h
      have hnat : c.toNat = c.val.toNat := rfl
      have h1 : 'z'.val.toNat = 122 := rfl
      have h2 : '9'.val.toNat = 57 := rfl
      omega
    · decide
  rw [Char.utf8Size_eq_one_iff]
  exact hlt

theorem utf8ByteSize_of_ascii {cs : List Char} (h : ∀ c ∈ cs, alnum c = true ∨ c = '-') :
    (String.ofList cs).utf8ByteSize = cs.length := by
  rw [String.utf8ByteSize_ofList]
  induction cs with
  | nil => rfl
  | cons c cs ih =>
    rw [String.utf8Len_cons, ih fun d hd => h d (List.mem_cons_of_mem _ hd),
      utf8Size_of_alnum (h c List.mem_cons_self), List.length_cons]

/-- What the validation says of a name. -/
theorem dnsSafe_spec {name : String} (h : dnsSafe name = true) :
    name.toList.length ≤ 63 ∧ (∃ c, name.toList.head? = some c ∧ alnum c = true) ∧
      ∀ c ∈ name.toList, alnum c = true ∨ c = '-' := by
  simp only [dnsSafe, Bool.and_eq_true, decide_eq_true_eq, List.all_eq_true, Bool.or_eq_true,
    beq_iff_eq] at h
  obtain ⟨⟨⟨-, hsize⟩, hfirst⟩, hall⟩ := h
  have hchars : ∀ c ∈ name.toList, alnum c = true ∨ c = '-' := by
    intro c hc
    rw [alnum, Bool.or_eq_true]
    exact hall c hc
  have hlen := utf8ByteSize_of_ascii hchars
  rw [String.ofList_toList] at hlen
  rw [Option.any_eq_true] at hfirst
  exact ⟨by omega, hfirst, hchars⟩

/-! ## Valid names of objects -/

/-- A name of at most `max` lower-case letters, digits and hyphens, with no
hyphen at either end. -/
structure DnsName (max : Nat) (s : String) : Prop where
  length : s.toList.length ≤ max
  first : ∃ c, s.toList.head? = some c ∧ alnum c = true
  last : ∃ c, s.toList.getLast? = some c ∧ alnum c = true
  chars : ∀ c ∈ s.toList, alnum c = true ∨ c = '-'

theorem toList_lnd (name : String) : (s!"lnd-{name}").toList = "lnd-".toList ++ name.toList := by
  change ("lnd-" ++ name).toList = _
  exact String.toList_append

theorem toList_lndLb (name : String) :
    (s!"lnd-lb-{name}").toList = "lnd-lb-".toList ++ name.toList := by
  change ("lnd-lb-" ++ name).toList = _
  exact String.toList_append

theorem toList_lndSuffix (name suffix : String) :
    (s!"lnd-{name}" ++ suffix).toList = "lnd-".toList ++ name.toList ++ suffix.toList := by
  rw [String.toList_append, toList_lnd]

/-- A safe name between two fixed parts. -/
theorem dnsName_between {max : Nat} {s : String} {pre cs suf : List Char}
    (hs : s.toList = pre ++ cs ++ suf) (hchars : ∀ c ∈ cs, alnum c = true ∨ c = '-')
    (hpre : ∃ c, pre.head? = some c ∧ alnum c = true)
    (hpres : ∀ c ∈ pre, alnum c = true ∨ c = '-') (hsuf : ∀ c ∈ suf, alnum c = true ∨ c = '-') :
    DnsName max s ↔ pre.length + cs.length + suf.length ≤ max ∧
      ∃ c, (pre ++ cs ++ suf).getLast? = some c ∧ alnum c = true := by
  constructor
  · intro h
    have hlen := h.length
    have hlast := h.last
    rw [hs] at hlen hlast
    simp only [List.length_append] at hlen
    exact ⟨hlen, hlast⟩
  · rintro ⟨hlen, hlast⟩
    refine ⟨?_, ?_, hs ▸ hlast, ?_⟩
    · rw [hs, List.length_append, List.length_append]
      exact hlen
    · obtain ⟨c, hc, halnum⟩ := hpre
      refine ⟨c, ?_, halnum⟩
      rw [hs, List.append_assoc, List.head?_append, hc]
      rfl
    · intro c hc
      rw [hs, List.mem_append, List.mem_append] at hc
      rcases hc with (hc | hc) | hc
      · exact hpres c hc
      · exact hchars c hc
      · exact hsuf c hc

theorem alnum_getLast {cs : List Char} (hchars : ∀ c ∈ cs, alnum c = true ∨ c = '-')
    (hne : cs ≠ []) : (∃ c, cs.getLast? = some c ∧ alnum c = true) ↔ cs.getLast? ≠ some '-' := by
  have hhyphen : alnum '-' = false := rfl
  rw [List.getLast?_eq_some_getLast hne]
  constructor
  · rintro ⟨c, hc, halnum⟩ hlast
    obtain rfl : c = '-' := Option.some.inj (hc.symm.trans hlast)
    rw [hhyphen] at halnum
    cases halnum
  · intro hlast
    refine ⟨_, rfl, (hchars _ (List.getLast_mem hne)).resolve_right fun heq => hlast ?_⟩
    rw [heq]

section Accepted

variable {name : String} (h : dnsSafe name = true)
include h

theorem ne_nil_of_dnsSafe : name.toList ≠ [] := by
  obtain ⟨-, ⟨c, hc, -⟩, -⟩ := dnsSafe_spec h
  intro hnil
  rw [hnil] at hc
  cases hc

theorem dnsName_lnd (max : Nat) : DnsName max s!"lnd-{name}" ↔
    name.toList.length + 4 ≤ max ∧ name.toList.getLast? ≠ some '-' := by
  obtain ⟨-, -, hchars⟩ := dnsSafe_spec h
  have hs : (s!"lnd-{name}").toList = "lnd-".toList ++ name.toList ++ [] := by
    rw [toList_lnd, List.append_nil]
  have hlen : "lnd-".toList.length = 4 := rfl
  rw [dnsName_between hs hchars ⟨'l', rfl, rfl⟩ (List.all_iff_forall_prop.1 (by decide)) nofun,
    List.append_nil,
    List.getLast?_append_of_ne_nil _ (ne_nil_of_dnsSafe h),
    alnum_getLast hchars (ne_nil_of_dnsSafe h), hlen, List.length_nil]
  refine and_congr_left' ?_
  omega

theorem dnsName_lndLb (max : Nat) : DnsName max s!"lnd-lb-{name}" ↔
    name.toList.length + 7 ≤ max ∧ name.toList.getLast? ≠ some '-' := by
  obtain ⟨-, -, hchars⟩ := dnsSafe_spec h
  have hs : (s!"lnd-lb-{name}").toList = "lnd-lb-".toList ++ name.toList ++ [] := by
    rw [toList_lndLb, List.append_nil]
  have hlen : "lnd-lb-".toList.length = 7 := rfl
  rw [dnsName_between hs hchars ⟨'l', rfl, rfl⟩ (List.all_iff_forall_prop.1 (by decide)) nofun,
    List.append_nil,
    List.getLast?_append_of_ne_nil _ (ne_nil_of_dnsSafe h),
    alnum_getLast hchars (ne_nil_of_dnsSafe h), hlen, List.length_nil]
  refine and_congr_left' ?_
  omega

/-- A suffix that ends well mends the end of the name. -/
theorem dnsName_suffix (max : Nat) (suffix : String)
    (hsuf : ∀ c ∈ suffix.toList, alnum c = true ∨ c = '-')
    (hlast : ∃ c, suffix.toList.getLast? = some c ∧ alnum c = true)
    (hmax : name.toList.length + suffix.toList.length + 4 ≤ max) :
    DnsName max (s!"lnd-{name}" ++ suffix) := by
  obtain ⟨-, -, hchars⟩ := dnsSafe_spec h
  have hlen : "lnd-".toList.length = 4 := rfl
  rw [dnsName_between (toList_lndSuffix name suffix) hchars ⟨'l', rfl, rfl⟩
    (List.all_iff_forall_prop.1 (by decide)) hsuf, hlen]
  refine ⟨by omega, ?_⟩
  obtain ⟨c, hc, halnum⟩ := hlast
  have hne : suffix.toList ≠ [] := by
    intro hnil
    rw [hnil] at hc
    cases hc
  exact ⟨c, by rw [List.getLast?_append_of_ne_nil _ hne, hc], halnum⟩

end Accepted

/-- The names and label values of an object: its own name, and for a service
the app that it selects. -/
def KubeObject.texts (o : KubeObject) : List String :=
  o.key.name :: match o.spec with
    | .service _ app _ => [app]
    | _ => []

/-- How long the names of a kind may be; the app of a service is a label value. -/
def Kind.maxName : Kind → Nat
  | .service => 63
  | _ => 253

theorem lightning_names_valid {instances : List LightningInstance} {inst : LightningInstance}
    (hvalid : validateLightning instances = .ok ()) (hmem : inst ∈ instances) (ns : String)
    (images : BTreeMap String String) (tls : InstanceTls) (restPort : Int) :
    ((∀ o ∈ lndObjects ns images tls inst restPort, ∀ s ∈ o.texts,
        DnsName o.key.kind.maxName s) ∧ DnsName 63 (Orchestrator.lndPodName inst.name)) ↔
      inst.name.toList.length ≤ 56 ∧ inst.name.toList.getLast? ≠ some '-' := by
  obtain ⟨hsafe, -⟩ := validateLightning_ok hvalid inst hmem
  constructor
  · rintro ⟨hall, -⟩
    have hlb := hall (lndLb ns inst restPort) (List.mem_append_right _ (List.mem_singleton_self _))
      s!"lnd-lb-{inst.name}" List.mem_cons_self
    have hlb' := (dnsName_lndLb hsafe 63).1 hlb
    exact ⟨by omega, hlb'.2⟩
  · rintro ⟨hlen, hlast⟩
    have hlnd : ∀ max, 60 ≤ max → DnsName max s!"lnd-{inst.name}" := fun max hmax =>
      (dnsName_lnd hsafe max).2 ⟨by omega, hlast⟩
    have hlb : DnsName 63 s!"lnd-lb-{inst.name}" := (dnsName_lndLb hsafe 63).2 ⟨by omega, hlast⟩
    have htls : DnsName 253 (s!"lnd-{inst.name}" ++ "-tls") :=
      dnsName_suffix hsafe 253 "-tls" (List.all_iff_forall_prop.1 (by decide)) ⟨'s', rfl, rfl⟩ (by
        have hsuf : "-tls".toList.length = 4 := rfl
        omega)
    have hpod : DnsName 63 (s!"lnd-{inst.name}" ++ "-0") :=
      dnsName_suffix hsafe 63 "-0" (List.all_iff_forall_prop.1 (by decide)) ⟨'0', rfl, rfl⟩ (by
        have hsuf : "-0".toList.length = 2 := rfl
        omega)
    refine ⟨?_, hpod⟩
    intro o ho s hs
    simp only [lndObjects, lndManifest, List.map_cons, List.map_nil, List.cons_append,
      List.nil_append, List.mem_cons, List.not_mem_nil, or_false] at ho
    rcases ho with rfl | rfl | rfl | rfl
    · rw [List.mem_singleton.1 hs]
      exact htls
    · simp only [KubeObject.texts, Spec.patchImages, List.mem_cons, List.not_mem_nil, or_false,
        or_self] at hs
      rw [hs]
      exact hlnd 63 (by decide)
    · rw [List.mem_singleton.1 hs]
      exact hlnd 253 (by decide)
    · simp only [KubeObject.texts, lndLb, Orchestrator.loadBalancer, List.mem_cons,
        List.not_mem_nil, or_false] at hs
      rcases hs with rfl | rfl
      · exact hlb
      · exact hlnd 63 (by decide)

theorem lightning_names_valid_sample :
    DnsName 63 "lnd-alice-0" ∧ ("alice".toList.length ≤ 56 ∧ "alice".toList.getLast? ≠ some '-') := by
  have hvalid : validateLightning [⟨"alice", .lnd⟩] = .ok () := by decide +kernel
  have hcond : "alice".toList.length ≤ 56 ∧ "alice".toList.getLast? ≠ some '-' := by decide
  exact ⟨((lightning_names_valid hvalid List.mem_cons_self "env-0" ∅ ⟨"", "", ""⟩ 20200).2 hcond).2,
    hcond⟩

/-- Accepted names whose services cannot be created: one is too long, one ends
in a hyphen. -/
theorem accepted_names_invalid :
    validateLightning [⟨String.ofList (List.replicate 57 'a'), .lnd⟩, ⟨"a-", .lnd⟩] = .ok () ∧
      ¬DnsName 63 ("lnd-lb-" ++ String.ofList (List.replicate 57 'a')) ∧ ¬DnsName 63 "lnd-a-" := by
  refine ⟨by decide +kernel, fun h => ?_, fun h => ?_⟩
  · exact absurd h.length (by decide +kernel)
  · obtain ⟨c, hc, halnum⟩ := h.last
    cases hc
    cases halnum

/-! ## Distinct names -/

theorem lnd_inj {a b : String} : s!"lnd-{a}" = s!"lnd-{b}" ↔ a = b := by
  rw [← String.toList_inj, toList_lnd, toList_lnd, List.append_cancel_left_eq, String.toList_inj]

theorem lndLb_inj {a b : String} : s!"lnd-lb-{a}" = s!"lnd-lb-{b}" ↔ a = b := by
  rw [← String.toList_inj, toList_lndLb, toList_lndLb, List.append_cancel_left_eq,
    String.toList_inj]

theorem lndTls_inj {a b : String} (h : s!"lnd-{a}-tls" = s!"lnd-{b}-tls") : a = b := by
  have hl : "lnd-".toList ++ a.toList ++ "-tls".toList =
      "lnd-".toList ++ b.toList ++ "-tls".toList := by
    rw [← toList_lndSuffix, ← toList_lndSuffix]
    exact congrArg String.toList h
  exact String.toList_inj.1 (List.append_cancel_left (List.append_cancel_right hl))

theorem lnd_eq_lndLb {a b : String} : s!"lnd-{a}" = s!"lnd-lb-{b}" ↔ a = "lb-" ++ b := by
  have hsplit : "lnd-lb-".toList = "lnd-".toList ++ "lb-".toList := rfl
  rw [← String.toList_inj, toList_lnd, toList_lndLb, hsplit, List.append_assoc,
    List.append_cancel_left_eq, ← String.toList_append, String.toList_inj]

theorem ne_lb_self (name : String) : name ≠ "lb-" ++ name := by
  intro h
  have hlen := congrArg (fun s => s.toList.length) h
  simp only [String.toList_append, List.length_append] at hlen
  have hlb : "lb-".toList.length = 3 := rfl
  omega

/-- One instance never collides with itself. -/
theorem lndKeys_nodup (ns : String) (inst : LightningInstance) : (lndKeys ns inst).Nodup := by
  have hne : ¬s!"lnd-{inst.name}" = s!"lnd-lb-{inst.name}" := fun h =>
    ne_lb_self inst.name (lnd_eq_lndLb.1 h)
  simp only [lndKeys, List.nodup_cons, List.mem_cons, List.not_mem_nil, Key.mk.injEq, reduceCtorEq,
    hne, false_and, and_false, or_false, not_false_eq_true, List.nodup_nil, and_self]

/-- Two instances collide only where one has the name of the other behind `lb-`. -/
theorem lndKeys_disjoint (ns : String) {a b : LightningInstance} (hname : a.name ≠ b.name) :
    List.Disjoint (lndKeys ns a) (lndKeys ns b) ↔
      b.name ≠ "lb-" ++ a.name ∧ a.name ≠ "lb-" ++ b.name := by
  constructor
  · intro h
    refine ⟨fun hb => ?_, fun ha => ?_⟩
    · have hkey : (⟨.service, some ns, s!"lnd-{b.name}"⟩ : Key) =
          ⟨.service, some ns, s!"lnd-lb-{a.name}"⟩ := by rw [lnd_eq_lndLb.2 hb]
      refine h (a := ⟨.service, some ns, s!"lnd-lb-{a.name}"⟩) ?_ (hkey ▸ ?_) <;>
        simp [lndKeys]
    · have hkey : (⟨.service, some ns, s!"lnd-{a.name}"⟩ : Key) =
          ⟨.service, some ns, s!"lnd-lb-{b.name}"⟩ := by rw [lnd_eq_lndLb.2 ha]
      refine h (a := ⟨.service, some ns, s!"lnd-{a.name}"⟩) ?_ (hkey ▸ ?_) <;>
        simp [lndKeys]
  · rintro ⟨hb, ha⟩ key hka hkb
    simp only [lndKeys, List.mem_cons, List.not_mem_nil, or_false] at hka hkb
    rcases hka with rfl | rfl | rfl | rfl <;> rcases hkb with hk | hk | hk | hk <;>
      simp only [Key.mk.injEq, reduceCtorEq, false_and, true_and] at hk
    · exact hname (lndTls_inj hk)
    · exact hname (lnd_inj.1 hk)
    · exact ha (lnd_eq_lndLb.1 hk)
    · exact hname (lnd_inj.1 hk)
    · exact hb (lnd_eq_lndLb.1 hk.symm)
    · exact hname (lndLb_inj.1 hk)

theorem lndKeys_flatMap_nodup (ns : String) {instances : List LightningInstance}
    (hnodup : (instances.map (·.name)).Nodup) :
    (instances.flatMap (lndKeys ns)).Nodup ↔
      ∀ a ∈ instances, ∀ b ∈ instances, b.name ≠ "lb-" ++ a.name := by
  have hsymm : Std.Symm fun a b => List.Disjoint (lndKeys ns a) (lndKeys ns b) :=
    ⟨fun _ _ h => List.disjoint_symm h⟩
  rw [List.nodup_flatMap]
  constructor
  · rintro ⟨-, hpair⟩ a ha b hb
    by_cases hname : a.name = b.name
    · rw [← hname]
      exact ne_lb_self a.name
    · have hne : a ≠ b := fun he => hname (congrArg _ he)
      exact ((lndKeys_disjoint ns hname).1 (hpair.forall ha hb hne)).1
  · refine fun h => ⟨fun a _ => lndKeys_nodup ns a, ?_⟩
    refine (List.Nodup.of_map _ hnodup).pairwise_of_forall_ne fun a ha b hb hne => ?_
    have hname : a.name ≠ b.name := fun he =>
      hne (List.inj_on_of_nodup_map hnodup ha hb he)
    exact (lndKeys_disjoint ns hname).2 ⟨h a ha b hb, h b hb a ha⟩

/-! ## Applying a list while nothing fails -/

/-- The namespace can take objects under these keys. -/
structure Vacant (ns : String) (keys : List Key) (w : World) : Prop where
  active : w.cluster.Active ns
  nodup : keys.Nodup
  vacant : ∀ k ∈ keys, ¬w.cluster.Exists k

theorem exec_create_vacant {c : Choice} {w : World} {ns : String} {obj : KubeObject} {keys : List Key}
    (hc : c.kubeFault = none) (hns : obj.key.ns = some ns) (h : Vacant ns (obj.key :: keys) w) :
    (World.exec c (.kube (.create obj)) w).2 = .ok () ∧
      Vacant ns keys (World.exec c (.kube (.create obj)) w).1 := by
  obtain ⟨hactive, hnodup, hvacant⟩ := h
  have hfresh := hvacant obj.key List.mem_cons_self
  have hcreate := (Cluster.create_of_active hns hactive).trans (dif_neg hfresh)
  obtain ⟨hreply, hworld⟩ := @World.kube_of_none c w (.create obj) hc
  rw [hreply, hworld]
  change (w.cluster.create obj).2 = _ ∧ Vacant ns keys { w with cluster := (w.cluster.create obj).1 }
  rw [hcreate]
  refine ⟨rfl, ?_, (List.nodup_cons.1 hnodup).2, fun k hk => ?_⟩
  · obtain ⟨o, ho, hname⟩ := hactive
    exact ⟨o, List.mem_append_left _ ho, hname⟩
  · rintro ⟨o, ho, hkey⟩
    rcases List.mem_append.1 ho with ho | ho
    · exact hvacant k (List.mem_cons_of_mem _ hk) ⟨o, ho, hkey⟩
    · rw [List.mem_singleton.1 ho] at hkey
      exact (List.nodup_cons.1 hnodup).1 (hkey ▸ hk)

/-- The certificates of an instance can be signed, whatever the keys are. -/
structure Signs (crates : Crates) : Prop where
  selfSigned : ∀ key, ∃ ca, crates.selfSigned caParams key = .ok ca
  signedBy : ∀ inst sans key ca caKey, ∃ leaf,
    crates.signedBy (leafParams inst sans) key ca caKey = .ok leaf

section Apply

variable {self : Orchestrator} {crates : Crates} {ns : String} {images : BTreeMap String String}
  {keys : List Key} {w : World}

theorem create_ends {obj : KubeObject} (hns : obj.key.ns = some ns)
    (h : Vacant ns (obj.key :: keys) w) (R : OrchestrateError → World → Prop) :
    Ends quiet () (Orch.kube (.create obj)) (fun _ => Vacant ns keys) R w := by
  refine ends_kube fun c _ hc => ?_
  obtain ⟨hreply, hvacant⟩ := exec_create_vacant (Option.isNone_iff_eq_none.1 hc.2) hns h
  refine ⟨fun _ _ => hvacant, fun e he => ?_⟩
  rw [hreply] at he
  cases he

theorem ends_liftTls {adm : Choice → Op → World → Prop} {α : Type} {r : Except String α}
    {Q : α → World → Prop} {R : OrchestrateError → World → Prop} (hok : ∀ a, r = .ok a → Q a w)
    (herr : ∀ m, r = .error m → R (.tls m) w) :
    Ends (alone adm) () (Orch.liftExcept (r.mapError .tls)) Q R w := by
  refine wp_ret.2 ?_
  cases r with
  | ok a => exact hok a rfl
  | error m => exact herr m rfl

theorem generateKeyPair_ends {adm : Choice → Op → World → Prop} {Q : KeyPair → World → Prop}
    {R : OrchestrateError → World → Prop} (hok : ∀ key, Q key w)
    (herr : ∀ m, (∃ c, adm c .generateKeyPair w ∧ c.keyPair = .error m) → R (.tls m) w) :
    Ends (alone adm) () generateKeyPair Q R w := by
  refine wp_call.2 fun c hadm => wp_ret.2 ?_
  have hexec : (alone adm).exec () c .generateKeyPair w = (w, c.keyPair) := rfl
  rw [hexec]
  cases hkey : c.keyPair with
  | ok key => exact hok key
  | error m => exact herr m ⟨c, hadm.2, hkey⟩

/-- Making certificates touches nothing, and fails only for the names, the keys or
the signatures. -/
theorem generateInstanceTls_ends {adm : Choice → Op → World → Prop} (inst host : String) :
    Ends (alone adm) () (generateInstanceTls crates inst ns host)
      (fun _ w' => w' = w ∧ ∃ sans, subjectAltNames inst ns host = .ok sans)
      (fun e w' => w' = w ∧ (∃ m, e = .tls m) ∧
        ((∀ c, adm c .generateKeyPair w → c.keyPair.toBool = true) → Signs crates →
          ¬∃ sans, subjectAltNames inst ns host = .ok sans)) w := by
  have hkeys : ∀ m, (∃ c, adm c .generateKeyPair w ∧ c.keyPair = .error m) →
      ¬∀ c, adm c .generateKeyPair w → c.keyPair.toBool = true := by
    rintro m ⟨c, hadm, hkey⟩ hall
    have hsome := hall c hadm
    rw [hkey] at hsome
    cases hsome
  refine Ends.bind (ends_liftTls (fun sans hsans => Ends.bind ?_) fun m hm => ?_)
  · refine generateKeyPair_ends (fun caKey => ?_) fun m hm =>
      ⟨rfl, ⟨m, rfl⟩, fun hall => absurd hall (hkeys m hm)⟩
    refine Ends.bind (ends_liftTls (fun ca hca => Ends.bind ?_) fun m hm => ?_)
    · refine generateKeyPair_ends (fun leafKey => ?_) fun m hm =>
        ⟨rfl, ⟨m, rfl⟩, fun hall => absurd hall (hkeys m hm)⟩
      refine Ends.bind (ends_liftTls (fun leaf _ => ends_pure ⟨rfl, sans, hsans⟩) fun m hm => ?_)
      refine ⟨rfl, ⟨m, rfl⟩, fun _ hcerts => ?_⟩
      obtain ⟨leaf, hleaf⟩ := hcerts.signedBy inst sans leafKey ca caKey
      cases hm.symm.trans hleaf
    · refine ⟨rfl, ⟨m, rfl⟩, fun _ hcerts => ?_⟩
      obtain ⟨ca, hca⟩ := hcerts.selfSigned caKey
      cases hm.symm.trans hca
  · refine ⟨rfl, ⟨m, rfl⟩, fun _ _ => ?_⟩
    rintro ⟨sans, hsans⟩
    cases hm.symm.trans hsans

theorem applyLndTlsSecret_ends (inst : String) (tls : InstanceTls)
    (h : Vacant ns ((Orchestrator.lndTlsSecret ns inst tls).key :: keys) w)
    (R : OrchestrateError → World → Prop) :
    Ends quiet () (Orchestrator.applyLndTlsSecret ns inst tls) (fun _ => Vacant ns keys) R w := by
  refine wp_call.2 fun c hc => ?_
  obtain ⟨hreply, hvacant⟩ := exec_create_vacant (Option.isNone_iff_eq_none.1 hc.2.2) rfl h
  change Wp quiet () (.ret (Orchestrator.keepExisting
    (World.exec c (.kube (.create (Orchestrator.lndTlsSecret ns inst tls))) w).2)) _ _
  rw [wp_ret, hreply]
  exact hvacant

/-- Where its names are free, an instance is applied unless its certificates fail. -/
theorem applyLnd_ends (inst : LightningInstance) (restPort : Int)
    (h : Vacant ns (lndKeys ns inst ++ keys) w) :
    Ends quiet () (self.applyLnd crates ns inst images restPort) (fun _ => Vacant ns keys)
      (fun e _ => ∃ m, e = .tls m) w := by
  refine Ends.bind ((generateInstanceTls_ends inst.name self.lnHost).mono
    (fun tls w' hw' => ?_) fun _ _ h => h.2.1)
  obtain ⟨rfl, -⟩ := hw'
  refine Ends.bind ((applyLndTlsSecret_ends inst.name tls h _).mono
    (fun _ w1 h1 => ?_) fun _ _ h => h)
  refine Ends.bind (Ends.mono (Q := fun _ => Vacant ns
    (⟨.service, some ns, s!"lnd-lb-{inst.name}"⟩ :: keys)) ?_ (fun _ w2 h2 => ?_) fun _ _ h => h)
  · refine Ends.bind ((create_ends rfl h1 _).mono (fun _ w2 h2 => ?_) fun _ _ h => h)
    refine Ends.bind ((create_ends rfl h2 _).mono (fun _ w3 h3 => ?_) fun _ _ h => h)
    exact ends_pure h3
  · exact create_ends rfl h2 _

theorem applyAll_ends (pairs : List (LightningInstance × Int))
    (h : Vacant ns ((pairs.map (·.1)).flatMap (lndKeys ns)) w) :
    Ends quiet () (forM pairs fun (inst, restPort) =>
      self.applyLnd crates ns inst images restPort) (fun _ _ => True)
        (fun e _ => ∃ m, e = .tls m) w := by
  refine (ends_forM (I := fun l => Vacant ns ((l.map (·.1)).flatMap (lndKeys ns)))
    (fun pair l w' h' => ?_) h).mono (fun _ _ _ => trivial) fun _ _ h => h
  rw [List.map_cons, List.flatMap_cons] at h'
  exact applyLnd_ends pair.1 pair.2 h'

end Apply

theorem lightning_objects_distinct {instances : List LightningInstance}
    (hvalid : validateLightning instances = .ok ()) {pairs : List (LightningInstance × Int)}
    (hpairs : pairs.map (·.1) = instances) (self : Orchestrator) (crates : Crates) (ns : String)
    (images : BTreeMap String String) {answer : (op : Op) → op.Reply}
    (happlied : (forM pairs fun (inst, restPort) =>
      self.applyLnd crates ns inst images restPort).run.answered answer = .ok ()) :
    (((createdBy answer (forM pairs fun (inst, restPort) =>
        self.applyLnd crates ns inst images restPort).run).map (·.key)).Nodup ↔
      ∀ a ∈ instances, ∀ b ∈ instances, b.name ≠ "lb-" ++ a.name) ∧
    ((∀ a ∈ instances, ∀ b ∈ instances, b.name ≠ "lb-" ++ a.name) →
      ∀ w r w', w.cluster.Active ns →
        (∀ k ∈ instances.flatMap (lndKeys ns), ¬w.cluster.Exists k) →
        Runs quiet () (forM pairs fun (inst, restPort) =>
          self.applyLnd crates ns inst images restPort).run w r w' →
        r ≠ .error (.kube (.api 409))) := by
  subst hpairs
  have hnames : ((pairs.map (·.1)).map (·.name)).Nodup := (validateLightning_nodup hvalid).1
  refine ⟨?_, fun hcond w r w' hactive hvacant hrun => ?_⟩
  · rw [createdBy_applyAll happlied]
    exact lndKeys_flatMap_nodup ns hnames
  · have hends := @applyAll_ends self crates ns images w pairs
      ⟨hactive, (lndKeys_flatMap_nodup ns hnames).2 hcond, hvacant⟩ r w' hrun
    rintro rfl
    obtain ⟨m, hm⟩ := hends
    cases hm

/-- Every create succeeds, and certificates can be made. -/
def sampleAnswer : (op : Op) → op.Reply
  | .sql _ => .error .connection
  | .kube (.create _) => .ok ()
  | .kube _ => .error (.api 404)
  | .utcNow => 0
  | .nowV7 | .newV4 | .generateKey => default
  | .generateKeyPair => .ok default
  | .fillBytes => []
  | .spawnLightningMesh _ _ | .respond _ => ()

/-- Apply these instances in the sample namespace. -/
def sampleApply (pairs : List (LightningInstance × Int)) : Orch Unit :=
  forM pairs fun (inst, restPort) =>
    sampleState.orchestrator.applyLnd sampleState.crates "env-000000000000" inst ∅ restPort

theorem lightning_objects_distinct_sample :
    ((createdBy sampleAnswer
      (sampleApply [(⟨"alice", .lnd⟩, 20200), (⟨"bob", .lnd⟩, 20203)]).run).map (·.key)).Nodup := by
  have hvalid : validateLightning [⟨"alice", .lnd⟩, ⟨"bob", .lnd⟩] = .ok () := by decide +kernel
  have happlied : (sampleApply [(⟨"alice", .lnd⟩, 20200), (⟨"bob", .lnd⟩, 20203)]).run.answered
      sampleAnswer = .ok () := by
    decide +kernel
  exact (lightning_objects_distinct hvalid rfl sampleState.orchestrator sampleState.crates
    "env-000000000000" ∅ happlied).1.2 (by decide +kernel)

/-- An accepted list that cannot be provisioned: the service of `lb-a` has the
name of the LoadBalancer service of `a`. -/
theorem accepted_names_collide :
    validateLightning [⟨"a", .lnd⟩, ⟨"lb-a", .lnd⟩] = .ok () ∧
      ∃ w', Runs quiet () (sampleApply [(⟨"a", .lnd⟩, 20200), (⟨"lb-a", .lnd⟩, 20203)]).run
        (sampleWorld .ready) (.error (.kube (.api 409))) w' := by
  refine ⟨by decide +kernel, ?_⟩
  have hrun : (runAlone quiet () (List.replicate 20 {})
      (sampleApply [(⟨"a", .lnd⟩, 20200), (⟨"lb-a", .lnd⟩, 20203)]).run (sampleWorld .ready)).any
        (fun r => r.1 = .error (.kube (.api 409))) = true := by
    decide +kernel
  obtain ⟨r, hr, herror⟩ := (Option.any_eq_true _ _).1 hrun
  refine ⟨r.2, runs_of_runAlone (hr.trans ?_)⟩
  rw [← of_decide_eq_true herror]

end SignetSandbox
