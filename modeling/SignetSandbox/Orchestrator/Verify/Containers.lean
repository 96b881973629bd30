import SignetSandbox.Orchestrator.Verify.Images

/-!
# Images of containers

`container_images` carries the resolved versions to the containers of the pods
(`containerImages_refers`). Two places compute the image of the explorer's
frontend from that of its backend, by replacing text; they agree.
-/

namespace SignetSandbox

/-! ## Replacing text -/

theorem replaceFirst_self (pattern : List Char) (s : List Char) :
    replaceFirst pattern pattern s = s := by
  induction s with
  | nil =>
    cases pattern with
    | nil => rfl
    | cons c cs => rfl
  | cons c cs ih =>
    rw [replaceFirst, ih]
    split
    · next hstarts =>
      obtain ⟨rest, hrest⟩ := List.isPrefixOf_iff_prefix.1 hstarts
      rw [← hrest, List.drop_left]
    · rfl

/-- Text without the first character of the pattern is passed over. -/
theorem replaceFirst_append {c : Char} (pattern replacement rest : List Char) {before : List Char}
    (h : c ∉ before) :
    replaceFirst (c :: pattern) replacement (before ++ (c :: pattern ++ rest)) =
      before ++ (replacement ++ rest) := by
  induction before with
  | nil =>
    have hstarts : (c :: pattern).isPrefixOf (c :: (pattern ++ rest)) = true :=
      List.isPrefixOf_iff_prefix.2 ⟨rest, rfl⟩
    rw [List.nil_append, List.nil_append, List.cons_append, replaceFirst, if_pos hstarts,
      List.length_cons, List.drop_succ_cons, List.drop_left]
  | cons b before ih =>
    rw [List.mem_cons, not_or] at h
    have hno : ¬(c :: pattern).isPrefixOf (b :: (before ++ (c :: pattern ++ rest))) = true := by
      simp [h.1]
    rw [List.cons_append, replaceFirst, if_neg hno, ih h.2, List.cons_append]

theorem replacen_self (s pattern : String) : replacen s pattern pattern = s := by
  rw [replacen, replaceFirst_self, String.ofList_toList]

/-- The image of the frontend for that of a backend, whatever the tag. -/
theorem replacen_backend (tag : String) :
    replacen s!"docker.io/mempool/backend:{tag}" "mempool/backend" "mempool/frontend" =
      s!"docker.io/mempool/frontend:{tag}" := by
  have hbackend : s!"docker.io/mempool/backend:{tag}".toList =
      "docker.io/".toList ++ ('m' :: "empool/backend".toList ++ (':' :: tag.toList)) := by
    rw [String.toList_append]
    rfl
  have hfrontend : s!"docker.io/mempool/frontend:{tag}".toList =
      "docker.io/".toList ++ ("mempool/frontend".toList ++ (':' :: tag.toList)) := by
    rw [String.toList_append]
    rfl
  have hbefore : 'm' ∉ "docker.io/".toList := by decide
  have hreplaced := replaceFirst_append "empool/backend".toList "mempool/frontend".toList
    (':' :: tag.toList) hbefore
  rw [← String.ofList_toList (s := s!"docker.io/mempool/frontend:{tag}"), replacen, hbackend,
    hfrontend]
  exact congrArg String.ofList hreplaced

/-! ## The patch set of a pod -/

/-- What one component contributes to the patch set. -/
def patchesOf (key image : String) : List (String × String) :=
  match COMPONENTS.find? fun s => s.key = key with
  | some spec =>
    spec.containers.map fun c => (c.1, replacen image ((spec.containers.head?.map Prod.snd).getD "") c.2)
  | none => [(key, image)]

theorem containerImages_eq (images : BTreeMap String String) : containerImages images =
    (images.entries.flatMap fun e => patchesOf e.1 e.2).foldl (fun m e => m.insert e.1 e.2) ∅ := by
  rw [List.foldl_flatMap]
  unfold containerImages patchesOf
  congr 1
  funext patched ⟨key, image⟩
  dsimp only
  cases COMPONENTS.find? fun s => s.key = key with
  | none => rfl
  | some spec => rw [List.foldl_map]

/-- A container takes the image of the component of its name, but for the frontend, which
also takes its image from the explorer. -/
theorem mem_patchesOf {key image container reference : String} :
    (container, reference) ∈ patchesOf key image ↔ (container = key ∧ reference = image) ∨
      (key = "explorer" ∧ container = "explorer-web" ∧
        reference = replacen image "mempool/backend" "mempool/frontend") := by
  by_cases hexplorer : key = "explorer"
  · subst hexplorer
    have hpatches : patchesOf "explorer" image =
        [("explorer", replacen image "mempool/backend" "mempool/backend"),
          ("explorer-web", replacen image "mempool/backend" "mempool/frontend")] := rfl
    rw [hpatches, replacen_self]
    simp
  · have hpatches : patchesOf key image = [(key, image)] := by
      by_cases helectrs : key = "electrs"
      · subst helectrs
        change [("electrs", replacen image "electrs" "electrs")] = _
        rw [replacen_self]
      by_cases hfaucet : key = "faucet"
      · subst hfaucet
        change [("faucet", replacen image "signet-faucet" "signet-faucet")] = _
        rw [replacen_self]
      have hnone : (COMPONENTS.find? fun s => s.key = key) = none := by
        simp [COMPONENTS, Ne.symm helectrs, Ne.symm hfaucet, Ne.symm hexplorer]
      rw [patchesOf, hnone]
    rw [hpatches]
    simp [hexplorer]

/-- Inserting entries that agree on a key. -/
theorem foldl_insert_get? {l : List (String × String)} {m : BTreeMap String String}
    {k v : String} (h : ∀ e ∈ l, e.1 = k → e.2 = v) :
    (l.foldl (fun m e => m.insert e.1 e.2) m).get? k =
      if k ∈ l.map Prod.fst then some v else m.get? k := by
  induction l generalizing m with
  | nil => simp
  | cons e l ih =>
    rw [List.foldl_cons, ih fun e' he' => h e' (List.mem_cons_of_mem _ he'), List.map_cons,
      BTreeMap.get?_insert]
    by_cases hk : k = e.1
    · rw [if_pos hk, h e List.mem_cons_self hk.symm]
      simp [hk]
    · simp only [List.mem_cons, hk, false_or, if_false]

/-- A container has the image that all components give it which give it one. -/
theorem containerImages_get? {images : BTreeMap String String} {key image container reference : String}
    (himage : images.get? key = some image) (hmine : (container, reference) ∈ patchesOf key image)
    (hall : ∀ key image, images.get? key = some image → ∀ reference',
      (container, reference') ∈ patchesOf key image → reference' = reference) :
    (containerImages images).get? container = some reference := by
  have hmem : (container, reference) ∈ images.entries.flatMap fun e => patchesOf e.1 e.2 :=
    List.mem_flatMap.2 ⟨(key, image), BTreeMap.get?_eq_some_iff.1 himage, hmine⟩
  rw [containerImages_eq, foldl_insert_get? (v := reference), if_pos (List.mem_map_of_mem hmem)]
  rintro ⟨container', reference'⟩ he rfl
  obtain ⟨⟨key', image'⟩, hentry, hpatch⟩ := List.mem_flatMap.1 he
  exact hall key' image' (BTreeMap.get?_eq_some_iff.2 hentry) reference' hpatch

/-- Every container but the frontend has the image of its own key. -/
theorem containerImages_own {images : BTreeMap String String} {container image : String}
    (hweb : container ≠ "explorer-web") (h : images.get? container = some image) :
    (containerImages images).get? container = some image := by
  refine containerImages_get? h (mem_patchesOf.2 (.inl ⟨rfl, rfl⟩)) fun key image' himage reference hpatch => ?_
  rcases mem_patchesOf.1 hpatch with ⟨rfl, rfl⟩ | ⟨-, hfrontend, -⟩
  · exact Option.some.inj (himage.symm.trans h)
  · exact absurd hfrontend hweb

/-- The frontend follows the explorer, as long as an image of its own says the same. -/
theorem containerImages_frontend {images : BTreeMap String String} {image : String}
    (h : images.get? "explorer" = some image)
    (hweb : ∀ web, images.get? "explorer-web" = some web →
      web = replacen image "mempool/backend" "mempool/frontend") :
    (containerImages images).get? "explorer-web" =
      some (replacen image "mempool/backend" "mempool/frontend") := by
  refine containerImages_get? h (mem_patchesOf.2 (.inr ⟨rfl, rfl, rfl⟩))
    fun key image' himage reference hpatch => ?_
  rcases mem_patchesOf.1 hpatch with ⟨rfl, rfl⟩ | ⟨rfl, -, rfl⟩
  · exact hweb _ himage
  · rw [Option.some.inj (himage.symm.trans h)]

/-! ## Resolved images -/

/-- A container: whose tag it takes, and where its image is. -/
structure ContainerRef where
  container : String
  component : String
  registry : String
  repo : String

/-- The containers of the pods, each with its own repository. -/
def CONTAINERS : List ContainerRef :=
  [⟨"bitcoind", "bitcoind", "docker.io/", "bitcoin/bitcoin"⟩,
   ⟨"signer", "signer", "", "signet-signer"⟩,
   ⟨"faucet", "faucet", "", "signet-faucet"⟩,
   ⟨"electrs", "electrs", "ghcr.io/nully0x/", "electrs"⟩,
   ⟨"lnd", "lnd", "docker.io/", "lightninglabs/lnd"⟩,
   ⟨"explorer", "explorer", "docker.io/", "mempool/backend"⟩,
   ⟨"explorer-web", "explorer", "docker.io/", "mempool/frontend"⟩]

variable (catalog : VersionCatalog) (tags : Option (BTreeMap String String))

/-- The tag of a component: the selected version, or that of the platform's own images. -/
def selectedTag (component : String) : Option String :=
  if component ∈ VERSIONED_COMPONENTS.map Prod.fst then catalog.effective (tags.getD ∅) component
  else some "dev"

/-- The image of a container under a tag. -/
def ContainerRef.reference (x : ContainerRef) (tag : String) : String := s!"{x.registry}{x.repo}:{tag}"

theorem imageOf_explorer (tag : String) :
    imageOf ("explorer", "mempool/backend", "docker.io/") tag = s!"docker.io/mempool/backend:{tag}" := by
  have hrepo : "docker.io/" ++ "mempool/backend" ++ ":" = "docker.io/mempool/backend:" := by decide
  exact congrArg (· ++ tag) hrepo

theorem reference_frontend (tag : String) :
    ContainerRef.reference ⟨"explorer-web", "explorer", "docker.io/", "mempool/frontend"⟩ tag =
      s!"docker.io/mempool/frontend:{tag}" := by
  have hrepo : "docker.io/" ++ "mempool/frontend" ++ ":" = "docker.io/mempool/frontend:" := by decide
  exact congrArg (· ++ tag) hrepo

/-- Where the explorer has an image and the frontend none yet, both places compute the same
one, whatever the tag. -/
theorem frontend_agrees {images : BTreeMap String String} {tag : String}
    (h : images.get? "explorer" = some s!"docker.io/mempool/backend:{tag}")
    (hweb : images.get? "explorer-web" = none) :
    (addFrontend images).get? "explorer-web" = some s!"docker.io/mempool/frontend:{tag}" ∧
      (containerImages images).get? "explorer-web" = some s!"docker.io/mempool/frontend:{tag}" := by
  constructor
  · rw [addFrontend, h]
    dsimp only
    rw [BTreeMap.get?_insert, if_pos rfl, replacen_backend]
  · have hnone : ∀ web, images.get? "explorer-web" = some web →
        web = replacen s!"docker.io/mempool/backend:{tag}" "mempool/backend" "mempool/frontend" := by
      intro web hsome
      rw [hweb] at hsome
      cases hsome
    rw [containerImages_frontend h hnone, replacen_backend]

/-- The frontend that was added says the same as the explorer. -/
theorem containerImages_addFrontend {images : BTreeMap String String} {tag : String}
    (h : images.get? "explorer" = some s!"docker.io/mempool/backend:{tag}") :
    (containerImages (addFrontend images)).get? "explorer-web" =
      some s!"docker.io/mempool/frontend:{tag}" := by
  have hexplorer : (addFrontend images).get? "explorer" = some s!"docker.io/mempool/backend:{tag}" :=
    (addFrontend_get? (by decide)).trans h
  rw [← replacen_backend]
  apply containerImages_frontend hexplorer
  intro web hweb
  rw [addFrontend, h] at hweb
  dsimp only at hweb
  rw [BTreeMap.get?_insert, if_pos rfl] at hweb
  exact (Option.some.inj hweb).symm

/-- Every container gets the image of its own repository under the tag of its component. -/
theorem containers_resolved {images : BTreeMap String String}
    (h : resolveImages catalog tags = .ok images) : ∀ x ∈ CONTAINERS, ∃ tag,
      selectedTag catalog tags x.component = some tag ∧
        (containerImages images).get? x.container = some (x.reference tag) := by
  obtain ⟨-, added, rfl, hversions, hothers⟩ := resolveImages_ok catalog tags h
  have hversioned : ∀ key repo registry, (key, repo, registry) ∈ VERSIONED_COMPONENTS →
      key ≠ "explorer-web" → ∃ tag, selectedTag catalog tags key = some tag ∧
        (containerImages (addFrontend added)).get? key =
          some (ContainerRef.reference ⟨key, key, registry, repo⟩ tag) := by
    intro key repo registry hmem hkey
    obtain ⟨tag, htag, himage⟩ := hversions _ hmem
    refine ⟨tag, ?_, containerImages_own hkey ((addFrontend_get? hkey).trans himage)⟩
    rw [selectedTag, if_pos (List.mem_map_of_mem hmem), htag]
  have hplatform : ∀ key image, key ∉ VERSIONED_COMPONENTS.map Prod.fst → key ≠ "explorer-web" →
      platformImages.get? key = some image →
      (containerImages (addFrontend added)).get? key = some image := by
    intro key image hno hkey himage
    apply containerImages_own hkey
    rw [addFrontend_get? hkey, hothers key hno, himage]
  simp only [CONTAINERS, List.forall_mem_cons]
  refine ⟨hversioned "bitcoind" _ _ (by decide) (by decide),
    ⟨"dev", rfl, hplatform "signer" _ (by decide) (by decide) (by decide)⟩,
    ⟨"dev", rfl, hplatform "faucet" _ (by decide) (by decide) (by decide)⟩,
    hversioned "electrs" _ _ (by decide) (by decide), hversioned "lnd" _ _ (by decide) (by decide),
    hversioned "explorer" _ _ (by decide) (by decide), ?_, nofun⟩
  obtain ⟨tag, htag, himage⟩ := hversions ("explorer", "mempool/backend", "docker.io/") (by decide)
  rw [imageOf_explorer] at himage
  refine ⟨tag, ?_, ?_⟩
  · rw [selectedTag, if_pos (by decide), htag]
  · rw [reference_frontend, containerImages_addFrontend himage]

/-! ## Pods -/

def Spec.containers : Spec → List Container
  | .workload _ containers _ => containers
  | _ => []

/-- The documents of an environment with these components and a Lightning instance. -/
def podDocs (components : EnvComponents) (inst : LightningInstance) : List Doc :=
  BITCOIND_MANIFEST ++ SIGNER_MANIFEST ++ (selectedSpecs components).flatMap (·.manifest) ++
    lndManifest inst

theorem podDocs_containers {components : EnvComponents} {inst : LightningInstance} {doc : Doc}
    (hdoc : doc ∈ podDocs components inst) {c : Container} (hc : c ∈ doc.spec.containers) :
    ∃ x ∈ CONTAINERS, x.container = c.name := by
  rw [podDocs, List.mem_append, List.mem_append, List.mem_append] at hdoc
  apply List.mem_map.1
  rcases hdoc with ((hdoc | hdoc) | hdoc) | hdoc
  · have hall : ∀ doc ∈ BITCOIND_MANIFEST, ∀ c ∈ doc.spec.containers,
        c.name ∈ CONTAINERS.map (·.container) := by decide
    exact hall doc hdoc c hc
  · have hall : ∀ doc ∈ SIGNER_MANIFEST, ∀ c ∈ doc.spec.containers,
        c.name ∈ CONTAINERS.map (·.container) := by decide
    exact hall doc hdoc c hc
  · have hall : ∀ spec ∈ COMPONENTS, ∀ doc ∈ spec.manifest, ∀ c ∈ doc.spec.containers,
        c.name ∈ CONTAINERS.map (·.container) := by decide
    obtain ⟨spec, hspec, hdoc⟩ := List.mem_flatMap.1 hdoc
    exact hall spec (List.mem_filter.1 hspec).1 doc hdoc c hc
  · rcases List.mem_cons.1 hdoc with rfl | hdoc
    · cases hc
    · obtain rfl := List.mem_singleton.1 hdoc
      obtain rfl := List.mem_singleton.1 hc
      decide

theorem patchImages_containers {images : BTreeMap String String} {spec : Spec} {c : Container}
    (h : c ∈ (spec.patchImages images).containers) :
    ∃ c' ∈ spec.containers, c.name = c'.name ∧
      ∀ reference, images.get? c.name = some reference → c.image = reference := by
  cases spec with
  | workload replicas containers ready =>
    obtain ⟨c', hc', rfl⟩ := List.mem_map.1 h
    refine ⟨c', hc', ?_, fun reference hreference => ?_⟩
    · split <;> rfl
    · split at hreference
      · next image himage =>
        rw [himage] at hreference
        exact Option.some.inj hreference
      · next hnone =>
        rw [hnone] at hreference
        cases hreference
  | _ => cases h

/-- **Images of containers.** When the versions are resolved, every container gets the
image of its own repository under the tag selected for its component, in the patch set
and in the pods; the two containers of the explorer have one tag, and the two places
that compute the image of its frontend agree on it for every tag. -/
theorem containerImages_refers (catalog : VersionCatalog) (tags : Option (BTreeMap String String)) :
    (∀ images, resolveImages catalog tags = .ok images →
      (∀ x ∈ CONTAINERS, ∃ tag, selectedTag catalog tags x.component = some tag ∧
        (containerImages images).get? x.container = some (x.reference tag)) ∧
      (∀ components inst, ∀ doc ∈ podDocs components inst,
        ∀ c ∈ (doc.spec.patchImages (containerImages images)).containers,
          ∃ x ∈ CONTAINERS, ∃ tag, x.container = c.name ∧
            selectedTag catalog tags x.component = some tag ∧ c.image = x.reference tag) ∧
      ∃ tag : String,
        (containerImages images).get? "explorer" = some s!"docker.io/mempool/backend:{tag}" ∧
        (containerImages images).get? "explorer-web" = some s!"docker.io/mempool/frontend:{tag}") ∧
    ∀ (images : BTreeMap String String) (tag : String),
      images.get? "explorer" = some s!"docker.io/mempool/backend:{tag}" →
      images.get? "explorer-web" = none →
        (addFrontend images).get? "explorer-web" = some s!"docker.io/mempool/frontend:{tag}" ∧
        (containerImages images).get? "explorer-web" = some s!"docker.io/mempool/frontend:{tag}" := by
  refine ⟨fun images h => ?_, fun images tag => frontend_agrees⟩
  have hcontainers := containers_resolved catalog tags h
  refine ⟨hcontainers, fun components inst doc hdoc c hc => ?_, ?_⟩
  · obtain ⟨c', hc', hname, himage⟩ := patchImages_containers hc
    obtain ⟨x, hx, hcontainer⟩ := podDocs_containers hdoc hc'
    obtain ⟨tag, htag, hreference⟩ := hcontainers x hx
    rw [hcontainer, ← hname] at hreference
    exact ⟨x, hx, tag, hcontainer.trans hname.symm, htag, himage _ hreference⟩
  · obtain ⟨-, added, rfl, hversions, -⟩ := resolveImages_ok catalog tags h
    obtain ⟨tag, -, himage⟩ := hversions ("explorer", "mempool/backend", "docker.io/") (by decide)
    rw [imageOf_explorer] at himage
    refine ⟨tag, containerImages_own (by decide) ?_, containerImages_addFrontend himage⟩
    exact (addFrontend_get? (by decide)).trans himage

end SignetSandbox
