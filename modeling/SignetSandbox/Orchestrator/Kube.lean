import SignetSandbox.Core.BTreeMap
import Mathlib.Data.List.Nodup

/-!
# The cluster

The part of the Kubernetes API that the orchestrator calls, over a store of
objects (`Cluster`): creating an object whose key is taken is a conflict,
creating one needs a namespace that is there and not going away, and deleting a
namespace only marks it until the cluster has collected it. The texts that a pod
or a service returns are not the cluster's: they come from outside.
-/

namespace SignetSandbox

inductive Kind
  | ns
  | secret
  | configMap
  | service
  | statefulSet
  | deployment
  | persistentVolumeClaim
  | httpRoute
  | gateway
  | referenceGrant
deriving DecidableEq, Repr

/-- What names an object: its kind, its namespace unless it has none, its name. -/
structure Key where
  kind : Kind
  ns : Option String
  name : String
deriving DecidableEq, Repr

structure ServicePort where
  name : Option String
  port : Int
  targetPort : Int
deriving DecidableEq, Repr

inductive ServiceType
  | clusterIP
  | loadBalancer
deriving DecidableEq, Repr

structure Container where
  name : String
  image : String
deriving DecidableEq, Repr

/-- The body of an object, as far as the orchestrator writes or reads it. -/
inductive Spec
  | bare
  | secret (data : List (String × String))
  | service (type : ServiceType) (app : String) (ports : List ServicePort)
  | workload (replicas : Int) (containers : List Container) (readyReplicas : Option Int)
  | route (hostnames : List String)
deriving DecidableEq, Repr

def Spec.setReplicas (replicas : Int) : Spec → Spec
  | .workload _ containers readyReplicas => .workload replicas containers readyReplicas
  | spec => spec

def Spec.setData (entry : String × String) : Spec → Spec
  | .secret data => .secret (data.filter (·.1 ≠ entry.1) ++ [entry])
  | spec => spec

structure KubeObject where
  key : Key
  labels : Option (BTreeMap String String) := none
  annotations : Option (BTreeMap String String) := none
  spec : Spec := .bare
  /-- The API server has accepted a delete. -/
  deleting : Bool := false
deriving DecidableEq

/-- The metadata of an object as the API server sends it, where every field is optional. -/
structure ObjectMeta where
  name : Option String := none
  labels : Option (BTreeMap String String) := none
  annotations : Option (BTreeMap String String) := none

namespace KubeObject

def metadata (o : KubeObject) : ObjectMeta := ⟨some o.key.name, o.labels, o.annotations⟩

/-- The data of a secret; anything else has none. -/
def data (o : KubeObject) : List (String × String) :=
  match o.spec with
  | .secret data => data
  | _ => []

def datum? (o : KubeObject) (key : String) : Option String :=
  (o.data.find? fun e => e.1 = key).map (·.2)

/-- `status.readyReplicas` of a workload. -/
def readyReplicas (o : KubeObject) : Option Int :=
  match o.spec with
  | .workload _ _ ready => ready
  | _ => none

/-- The app behind a lightning LoadBalancer service, with its REST port. -/
def lndExposure? (o : KubeObject) : Option (String × Int) :=
  match o.spec with
  | .service .loadBalancer app (⟨some "rest", port, _⟩ :: _) => some (app, port)
  | _ => none

end KubeObject

/-- The objects of the cluster, no two with one key. -/
structure Cluster where
  objects : List KubeObject
  keys : (objects.map (·.key)).Nodup

/-- `kube::Error`: a status of the API server, or anything else. -/
inductive KubeError
  | api (code : Nat)
  | other (message : String)
deriving DecidableEq, Repr

/-- What an exec in a pod yields: its standard output, if it has one and it
could be read, and the status it ended with. -/
structure ExecOutput where
  stdout : Option (Except String (List UInt8)) := none
  status : Option String := none

/-- One call of the Kubernetes API. -/
inductive Call
  | create (obj : KubeObject)
  | getOpt (key : Key)
  | get (key : Key)
  | delete (key : Key)
  | list (kind : Kind) (ns : Option String) (label : Option String)
  | patchReplicas (key : Key) (replicas : Int)
  | patchStringData (key : Key) (entry : String × String)
  | exec (ns pod : String) (args : List String)
  | requestText (uri body : String)

namespace Cluster

def find? (cl : Cluster) (key : Key) : Option KubeObject := cl.objects.find? fun o => o.key = key

/-- The key of a namespace object. -/
def nsKey (name : String) : Key := ⟨.ns, none, name⟩

theorem nsKey_inj {a b : String} : nsKey a = nsKey b ↔ a = b :=
  ⟨fun h => (Key.mk.inj h).2.2, congrArg nsKey⟩

/-- The namespace is there and not going away. -/
def Active (cl : Cluster) (name : String) : Prop :=
  ∃ o ∈ cl.objects, o.key = nsKey name ∧ o.deleting = false

/-- The namespace is there, be it going away. -/
def Exists (cl : Cluster) (key : Key) : Prop := ∃ o ∈ cl.objects, o.key = key

instance (cl : Cluster) (name : String) : Decidable (cl.Active name) :=
  inferInstanceAs (Decidable (∃ o ∈ cl.objects, _))

instance (cl : Cluster) (key : Key) : Decidable (cl.Exists key) :=
  inferInstanceAs (Decidable (∃ o ∈ cl.objects, _))

/-- The cluster with one more object. -/
def add (cl : Cluster) (obj : KubeObject) (h : ¬cl.Exists obj.key) : Cluster where
  objects := cl.objects ++ [obj]
  keys := by
    rw [List.map_append, List.nodup_append]
    refine ⟨cl.keys, List.nodup_singleton _, fun a ha b hb => ?_⟩
    obtain ⟨o, ho, rfl⟩ := List.mem_map.1 ha
    obtain rfl := List.mem_singleton.1 hb
    exact fun he => h ⟨o, ho, he⟩

/-- The cluster with the object of one key rewritten. -/
def update (cl : Cluster) (key : Key) (f : KubeObject → KubeObject)
    (hkey : ∀ o, (f o).key = o.key) : Cluster where
  objects := cl.objects.map fun o => if o.key = key then f o else o
  keys := by
    rw [List.map_map, List.map_congr_left (g := (·.key))]
    · exact cl.keys
    · intro o _
      simp only [Function.comp_apply]
      split
      · exact hkey o
      · rfl

/-- The cluster with the objects that `P` keeps. -/
def filter (cl : Cluster) (P : KubeObject → Bool) : Cluster where
  objects := cl.objects.filter P
  keys := cl.keys.sublist (List.filter_sublist.map _)

/-- Admission rejects an object of a namespace that is going away or not there. -/
def admission (cl : Cluster) : Option String → Except KubeError Unit
  | none => .ok ()
  | some n =>
    if cl.Active n then .ok ()
    else if cl.Exists (nsKey n) then .error (.api 403)
    else .error (.api 404)

def create (cl : Cluster) (obj : KubeObject) : Cluster × Except KubeError Unit :=
  match cl.admission obj.key.ns with
  | .error e => (cl, .error e)
  | .ok () =>
    if h : cl.Exists obj.key then (cl, .error (.api 409))
    else (cl.add obj h, .ok ())

def get (cl : Cluster) (key : Key) : Except KubeError KubeObject :=
  match cl.find? key with
  | some o => .ok o
  | none => .error (.api 404)

/-- A namespace only starts to go away; anything else is gone at once. -/
def delete (cl : Cluster) (key : Key) : Cluster × Except KubeError Unit :=
  if cl.Exists key then
    match key.kind with
    | .ns => (cl.update key (fun o => { o with deleting := true }) fun _ => rfl, .ok ())
    | _ => (cl.filter fun o => o.key ≠ key, .ok ())
  else (cl, .error (.api 404))

def list (cl : Cluster) (kind : Kind) (ns : Option String) (label : Option String) :
    List KubeObject :=
  cl.objects.filter fun o => decide (o.key.kind = kind ∧ (ns = none ∨ o.key.ns = ns)) &&
    match label with
    | none => true
    | some l => (o.labels.map (·.containsKey l)).getD false

def patch (cl : Cluster) (key : Key) (f : Spec → Spec) : Cluster × Except KubeError Unit :=
  if cl.Exists key then
    (cl.update key (fun o => { o with spec := f o.spec }) fun _ => rfl, .ok ())
  else (cl, .error (.api 404))

/-- The cluster collects a namespace that is going away, with all it holds. -/
def collect (cl : Cluster) (name : String) : Cluster :=
  cl.filter fun o => o.key ≠ nsKey name ∧ o.key.ns ≠ some name

/-- A controller reports how many replicas of a workload are ready. -/
def report (cl : Cluster) (key : Key) (ready : Option Int) : Cluster :=
  cl.update key (fun o => { o with spec := match o.spec with
    | .workload replicas containers _ => .workload replicas containers ready
    | spec => spec }) fun _ => rfl

/-! ## Namespaces -/

theorem eq_of_key {cl : Cluster} {o o' : KubeObject} (h : o ∈ cl.objects) (h' : o' ∈ cl.objects)
    (hkey : o.key = o'.key) : o = o' :=
  List.inj_on_of_nodup_map cl.keys h h' hkey

theorem mem_update {cl : Cluster} {key : Key} {f : KubeObject → KubeObject}
    (hkey : ∀ o, (f o).key = o.key) {o' : KubeObject} :
    o' ∈ (cl.update key f hkey).objects ↔
      ∃ o ∈ cl.objects, (if o.key = key then f o else o) = o' :=
  List.mem_map

theorem find?_eq_none {cl : Cluster} {key : Key} : cl.find? key = none ↔ ¬cl.Exists key := by
  unfold find? Exists
  simp [List.find?_eq_none]

theorem mem_of_get {cl : Cluster} {key : Key} {o : KubeObject} (h : cl.get key = .ok o) :
    o ∈ cl.objects ∧ o.key = key := by
  unfold get find? at h
  split at h
  · next o' hfind =>
    obtain rfl := Except.ok.inj h
    have hkey := List.find?_some hfind
    exact ⟨List.mem_of_find?_eq_some hfind, of_decide_eq_true hkey⟩
  · cases h

theorem Active.exists {cl : Cluster} {name : String} (h : cl.Active name) :
    cl.Exists (nsKey name) := by
  obtain ⟨o, ho, hkey, -⟩ := h
  exact ⟨o, ho, hkey⟩

/-- Rewriting objects neither makes a namespace nor brings one back. -/
theorem active_of_update {cl : Cluster} {key : Key} {f : KubeObject → KubeObject}
    (hkey : ∀ o, (f o).key = o.key) (hf : ∀ o, (f o).deleting = false → o.deleting = false)
    {name : String} (h : (cl.update key f hkey).Active name) : cl.Active name := by
  obtain ⟨o', ho', hname, hdel⟩ := h
  obtain ⟨o, ho, rfl⟩ := (mem_update hkey).1 ho'
  by_cases hk : o.key = key
  · rw [if_pos hk] at hname hdel
    exact ⟨o, ho, (hkey o).symm.trans hname, hf o hdel⟩
  · rw [if_neg hk] at hname hdel
    exact ⟨o, ho, hname, hdel⟩

/-- Rewriting objects other than the namespace, or more than their deletion
mark, leaves the namespace there. -/
theorem active_update {cl : Cluster} {key : Key} {f : KubeObject → KubeObject}
    (hkey : ∀ o, (f o).key = o.key) {name : String}
    (hf : key = nsKey name → ∀ o, (f o).deleting = o.deleting) (h : cl.Active name) :
    (cl.update key f hkey).Active name := by
  obtain ⟨o, ho, hname, hdel⟩ := h
  refine ⟨_, (mem_update hkey).2 ⟨o, ho, rfl⟩, ?_⟩
  split
  · next hk => exact ⟨(hkey o).trans hname, (hf (hk.symm.trans hname) o).trans hdel⟩
  · exact ⟨hname, hdel⟩

theorem active_of_filter {cl : Cluster} {P : KubeObject → Bool} {name : String}
    (h : (cl.filter P).Active name) : cl.Active name := by
  obtain ⟨o, ho, hname, hdel⟩ := h
  exact ⟨o, (List.mem_filter.1 ho).1, hname, hdel⟩

/-- Patching the body of an object leaves the namespaces alone. -/
theorem active_patch {cl : Cluster} {key : Key} {f : Spec → Spec} {name : String} :
    (cl.patch key f).1.Active name ↔ cl.Active name := by
  unfold patch
  split
  · refine ⟨fun h => ?_, fun h => ?_⟩
    · refine active_of_update (by intro; rfl) ?_ h
      exact fun _ hd => hd
    · refine active_update (by intro; rfl) ?_ h
      exact fun _ _ => rfl
  · exact Iff.rfl

/-- What a successful create adds. -/
theorem create_cases (cl : Cluster) (obj : KubeObject) :
    (cl.create obj).1 = cl ∧ (cl.create obj).2 ≠ .ok () ∨
      ¬cl.Exists obj.key ∧ (cl.create obj).2 = .ok () ∧
        (cl.create obj).1.objects = cl.objects ++ [obj] := by
  unfold create
  split
  · exact .inl ⟨rfl, nofun⟩
  · split
    · exact .inl ⟨rfl, nofun⟩
    · next h => exact .inr ⟨h, rfl, rfl⟩

/-- In an active namespace a create adds its object, unless the key is taken. -/
theorem create_of_active {cl : Cluster} {obj : KubeObject} {ns : String}
    (hns : obj.key.ns = some ns) (hactive : cl.Active ns) :
    cl.create obj = if h : cl.Exists obj.key then (cl, .error (.api 409)) else (cl.add obj h, .ok ()) := by
  have hadmitted : cl.admission obj.key.ns = .ok () := by
    rw [hns]
    exact if_pos hactive
  unfold create
  rw [hadmitted]

/-- A create in any other namespace is refused, and not as a conflict. -/
theorem create_of_inactive {cl : Cluster} {obj : KubeObject} {ns : String}
    (hns : obj.key.ns = some ns) (hinactive : ¬cl.Active ns) :
    ∃ code, code ≠ 409 ∧ cl.create obj = (cl, .error (.api code)) := by
  have hrefused : ∃ code, code ≠ 409 ∧ cl.admission obj.key.ns = .error (.api code) := by
    rw [hns]
    unfold admission
    dsimp only
    rw [if_neg hinactive]
    split
    · exact ⟨403, by decide, rfl⟩
    · exact ⟨404, by decide, rfl⟩
  obtain ⟨code, hcode, hadmission⟩ := hrefused
  refine ⟨code, hcode, ?_⟩
  unfold create
  rw [hadmission]

/-- An accepted delete of a namespace leaves it no longer active. -/
theorem delete_not_active (cl : Cluster) (name : String) :
    ¬(cl.delete (nsKey name)).1.Active name := by
  rintro ⟨o, ho, hname, hdel⟩
  unfold delete at ho
  split at ho
  · obtain ⟨o', -, rfl⟩ := (mem_update (by intro; rfl)).1 ho
    by_cases hk : o'.key = nsKey name
    · rw [if_pos hk] at hdel
      cases hdel
    · rw [if_neg hk] at hname
      exact hk hname
  · next hne => exact hne ⟨o, ho, hname⟩

end Cluster

namespace Call

/-- What a call returns when it succeeds. -/
@[reducible] def Result : Call → Type
  | create _ => Unit
  | getOpt _ => Option KubeObject
  | get _ => KubeObject
  | delete _ => Unit
  | list _ _ _ => List KubeObject
  | patchReplicas _ _ => Unit
  | patchStringData _ _ => Unit
  | exec _ _ _ => ExecOutput
  | requestText _ _ => String

/-- Run a call; `output` and `text` are what a pod or a service answers. -/
def run (output : ExecOutput) (text : String) (cl : Cluster) :
    (c : Call) → Cluster × Except KubeError c.Result
  | create obj => cl.create obj
  | getOpt key => (cl, .ok (cl.find? key))
  | get key => (cl, cl.get key)
  | delete key => cl.delete key
  | list kind ns label => (cl, .ok (cl.list kind ns label))
  | patchReplicas key replicas => cl.patch key (Spec.setReplicas replicas)
  | patchStringData key entry => cl.patch key (Spec.setData entry)
  | exec _ _ _ => (cl, .ok output)
  | requestText _ _ => (cl, .ok text)

/-- A call that changes nothing in the store. -/
def Reads : Call → Prop
  | create _ | delete _ | patchReplicas _ _ | patchStringData _ _ => False
  | _ => True

theorem run_of_reads {output : ExecOutput} {text : String} {cl : Cluster} {c : Call}
    (h : c.Reads) : (c.run output text cl).1 = cl := by
  cases c <;> first | rfl | exact h.elim

/-- A namespace becomes active only by being created. -/
theorem active_of_run {output : ExecOutput} {text : String} {cl : Cluster} {c : Call}
    {name : String} (h : (c.run output text cl).1.Active name) :
    cl.Active name ∨ ∃ obj, c = .create obj ∧ obj.key = Cluster.nsKey name := by
  cases c with
  | create obj =>
    rcases cl.create_cases obj with ⟨hsame, -⟩ | ⟨-, -, hobjs⟩
    · exact .inl (hsame ▸ h)
    · obtain ⟨o, ho, hname, hdel⟩ := h
      change o ∈ (cl.create obj).1.objects at ho
      rw [hobjs, List.mem_append, List.mem_singleton] at ho
      rcases ho with ho | rfl
      · exact .inl ⟨o, ho, hname, hdel⟩
      · exact .inr ⟨o, rfl, hname⟩
  | delete key =>
    refine .inl ?_
    change (cl.delete key).1.Active name at h
    unfold Cluster.delete at h
    split at h
    · split at h
      · refine Cluster.active_of_update (by intro; rfl) ?_ h
        exact fun _ hd => by cases hd
      · exact Cluster.active_of_filter h
    · exact h
  | patchReplicas key replicas => exact .inl (Cluster.active_patch.1 h)
  | patchStringData key entry => exact .inl (Cluster.active_patch.1 h)
  | getOpt | get | list | exec | requestText => exact .inl h

/-- An active namespace stays so until it is deleted. -/
theorem active_run {output : ExecOutput} {text : String} {cl : Cluster} {c : Call}
    {name : String} (h : cl.Active name) (hdel : c ≠ .delete (Cluster.nsKey name)) :
    (c.run output text cl).1.Active name := by
  cases c with
  | create obj =>
    change (cl.create obj).1.Active name
    rcases cl.create_cases obj with ⟨hsame, -⟩ | ⟨-, -, hobjs⟩
    · rwa [hsame]
    · obtain ⟨o, ho, hname⟩ := h
      refine ⟨o, ?_, hname⟩
      rw [hobjs]
      exact List.mem_append_left _ ho
  | delete key =>
    change (cl.delete key).1.Active name
    unfold Cluster.delete
    split
    · split
      · refine Cluster.active_update (by intro; rfl) (fun hk => ?_) h
        exact absurd (congrArg Call.delete hk) hdel
      · next hkind =>
        obtain ⟨o, ho, hname, hd⟩ := h
        refine ⟨o, List.mem_filter.2 ⟨ho, decide_eq_true fun hk => ?_⟩, hname, hd⟩
        exact hkind (by rw [← hk, hname]; rfl)
    · exact h
  | patchReplicas key replicas => exact Cluster.active_patch.2 h
  | patchStringData key entry => exact Cluster.active_patch.2 h
  | getOpt | get | list | exec | requestText => exact h

/-- Every object was there before, under the same key and labels, or was created. -/
theorem mem_of_run {output : ExecOutput} {text : String} {cl : Cluster} {c : Call}
    {o' : KubeObject} (h : o' ∈ (c.run output text cl).1.objects) :
    (∃ o ∈ cl.objects, o'.key = o.key ∧ o'.labels = o.labels ∧ o'.lndExposure? = o.lndExposure?) ∨
      c = .create o' := by
  have hpatch : ∀ (key : Key) (f : Spec → Spec),
      (∀ o : KubeObject, ({ o with spec := f o.spec } : KubeObject).lndExposure? = o.lndExposure?) →
      o' ∈ (cl.patch key f).1.objects → ∃ o ∈ cl.objects,
        o'.key = o.key ∧ o'.labels = o.labels ∧ o'.lndExposure? = o.lndExposure? := by
    intro key f hf ho
    unfold Cluster.patch at ho
    split at ho
    · obtain ⟨o, hmem, rfl⟩ := (Cluster.mem_update (by intro; rfl)).1 ho
      refine ⟨o, hmem, ?_⟩
      split
      · exact ⟨rfl, rfl, hf o⟩
      · exact ⟨rfl, rfl, rfl⟩
    · exact ⟨o', ho, rfl, rfl, rfl⟩
  cases c with
  | create obj =>
    change o' ∈ (cl.create obj).1.objects at h
    rcases cl.create_cases obj with ⟨hsame, -⟩ | ⟨-, -, hobjs⟩
    · exact .inl ⟨o', hsame ▸ h, rfl, rfl, rfl⟩
    · rw [hobjs, List.mem_append, List.mem_singleton] at h
      rcases h with h | rfl
      · exact .inl ⟨o', h, rfl, rfl, rfl⟩
      · exact .inr rfl
  | delete key =>
    refine .inl ?_
    change o' ∈ (cl.delete key).1.objects at h
    unfold Cluster.delete at h
    split at h
    · split at h
      · obtain ⟨o, hmem, rfl⟩ := (Cluster.mem_update (by intro; rfl)).1 h
        refine ⟨o, hmem, ?_⟩
        split <;> exact ⟨rfl, rfl, rfl⟩
      · exact ⟨o', (List.mem_filter.1 h).1, rfl, rfl, rfl⟩
    · exact ⟨o', h, rfl, rfl, rfl⟩
  | patchReplicas key replicas =>
    refine .inl (hpatch key _ (fun o => ?_) h)
    unfold KubeObject.lndExposure? Spec.setReplicas
    cases o.spec <;> rfl
  | patchStringData key entry =>
    refine .inl (hpatch key _ (fun o => ?_) h)
    unfold KubeObject.lndExposure? Spec.setData
    cases o.spec <;> rfl
  | getOpt | get | list | exec | requestText => exact .inl ⟨o', h, rfl, rfl, rfl⟩

end Call

end SignetSandbox
