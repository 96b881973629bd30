import SignetSandbox.Core.Crates
import SignetSandbox.Orchestrator.Images

/-!
# Resolved versions

`resolve_images` accepts exactly the compatible selections of a catalog, and deploys
what they select (`resolveImages_resolves`).
-/

namespace SignetSandbox

/-! ## Tags -/

/-- A well-formed image tag. -/
structure WellFormedTag (tag : String) : Prop where
  ne : tag ≠ ""
  size : tag.utf8ByteSize ≤ 64
  chars : ∀ c ∈ tag.toList, c.isAlphanum = true ∨ c = '.' ∨ c = '_' ∨ c = '-'

theorem validateTag_ok {tag : String} : validateTag tag = .ok () ↔ WellFormedTag tag := by
  have hempty : tag.toList.isEmpty = true ↔ tag = "" := by
    rw [List.isEmpty_iff, String.toList_eq_nil_iff]
  have hchars : (tag.toList.all fun c => c.isAlphanum || c == '.' || c == '_' || c == '-') = true ↔
      ∀ c ∈ tag.toList, c.isAlphanum = true ∨ c = '.' ∨ c = '_' ∨ c = '-' := by
    simp [or_assoc]
  unfold validateTag
  constructor
  · intro h
    split at h
    · cases h
    · next hgood =>
      obtain ⟨hne, hgood⟩ := not_or.1 hgood
      obtain ⟨hsize, hall⟩ := not_or.1 hgood
      exact ⟨fun he => hne (hempty.2 he), not_lt.1 hsize, hchars.1 (not_not.1 hall)⟩
  · rintro ⟨hne, hsize, hall⟩
    refine if_neg ?_
    rintro (hbad | hbad | hbad)
    · exact hne (hempty.1 hbad)
    · omega
    · exact hbad (hchars.2 hall)

/-! ## Selections -/

section

variable (catalog : VersionCatalog) (tags : BTreeMap String String)

/-- The version that is selected for a component meets the requirements of what is
selected for the others. -/
structure Requirements : Prop where
  met : ∀ {component versions version entry dependency constraint depVersion},
    catalog.entries.get? component = some versions →
    catalog.effective tags component = some version → versions.get? version = some entry →
    entry.requires.get? dependency = some constraint →
    catalog.effective tags dependency = some depVersion → satisfies depVersion constraint = true

/-- A selection that the catalog allows. -/
structure Compatible : Prop extends Requirements catalog tags where
  pins : ∀ {component tag}, tags.get? component = some tag →
    WellFormedTag tag ∧ catalog.has component tag = true
  components : ∀ x ∈ VERSIONED_COMPONENTS, ∃ tag, catalog.effective tags x.1 = some tag ∧ WellFormedTag tag

theorem validatePin_ok {component version : String} :
    catalog.validatePin component version = .ok () ↔ catalog.has component version = true := by
  unfold VersionCatalog.validatePin
  split
  · next h => exact ⟨fun _ => h, fun _ => rfl⟩
  · next h => exact ⟨nofun, fun hhas => absurd hhas h⟩

theorem validateComponent_ok {component : String} {versions : BTreeMap String VersionEntry} :
    catalog.validateComponent tags component versions = .ok () ↔
      ∀ {version entry dependency constraint depVersion},
        catalog.effective tags component = some version → versions.get? version = some entry →
        entry.requires.get? dependency = some constraint →
        catalog.effective tags dependency = some depVersion →
        satisfies depVersion constraint = true := by
  unfold VersionCatalog.validateComponent
  cases hversion : catalog.effective tags component with
  | none => exact ⟨fun _ => nofun, fun _ => rfl⟩
  | some version =>
    dsimp only
    cases hentry : versions.get? version with
    | none =>
      refine ⟨fun _ => ?_, fun _ => rfl⟩
      rintro _ entry _ _ _ ⟨⟩ hentry'
      rw [hentry] at hentry'
      cases hentry'
    | some entry =>
      rw [forM_ok]
      constructor
      · rintro h _ _ dependency constraint depVersion ⟨⟩ hentry' hrequires hdep
        rw [hentry] at hentry'
        cases hentry'
        have hcheck := h _ (BTreeMap.get?_eq_some_iff.1 hrequires)
        dsimp only at hcheck
        rw [hdep] at hcheck
        dsimp only at hcheck
        split at hcheck
        · next hsat => exact hsat
        · cases hcheck
      · rintro h ⟨dependency, constraint⟩ hrequires
        dsimp only
        split
        · rfl
        · next depVersion hdep =>
          exact if_pos (h rfl hentry (BTreeMap.get?_eq_some_iff.2 hrequires) hdep)

theorem validateSelection_ok : catalog.validateSelection tags = .ok () ↔
    (∀ {component tag}, tags.get? component = some tag → catalog.has component tag = true) ∧
      Requirements catalog tags := by
  have hpins : (tags.entries.forM fun e => catalog.validatePin e.1 e.2) = .ok () ↔
      ∀ {component tag}, tags.get? component = some tag → catalog.has component tag = true := by
    rw [forM_ok]
    simp only [validatePin_ok, BTreeMap.get?_eq_some_iff]
    exact ⟨fun h component tag htag => h (component, tag) htag, fun h e he => h he⟩
  have hcomponents : (catalog.entries.entries.forM fun e => catalog.validateComponent tags e.1 e.2) = .ok () ↔
      Requirements catalog tags := by
    rw [forM_ok]
    constructor
    · refine fun h => ⟨fun hversions => ?_⟩
      exact (validateComponent_ok catalog tags).1 (h _ (BTreeMap.get?_eq_some_iff.1 hversions))
    · rintro h ⟨component, versions⟩ hversions
      exact (validateComponent_ok catalog tags).2 (h.met (BTreeMap.get?_eq_some_iff.2 hversions))
  rw [← hpins, ← hcomponents]
  constructor
  · intro h
    obtain ⟨⟨⟩, hfirst, hsecond⟩ := bind_ok h
    exact ⟨hfirst, hsecond⟩
  · rintro ⟨hfirst, hsecond⟩
    change ((tags.entries.forM fun e => catalog.validatePin e.1 e.2) >>= fun _ =>
      catalog.entries.entries.forM fun e => catalog.validateComponent tags e.1 e.2) = .ok ()
    rw [hfirst]
    exact hsecond

end

/-! ## Images -/

variable (catalog : VersionCatalog) (tags : Option (BTreeMap String String))

/-- One round of the loop over the components. -/
def addImage (images : BTreeMap String String) (x : String × String × String) :
    Except VersionError (BTreeMap String String) :=
  match catalog.effective (tags.getD ∅) x.1 with
  | none => .error (.unknownComponent x.1)
  | some tag => do
    validateTag tag
    return images.insert x.1 s!"{x.2.2}{x.2.1}:{tag}"

theorem effective_eq (component : String) :
    (tags.bind fun tags => tags.get? component).or (catalog.defaultVersion component) =
      catalog.effective (tags.getD ∅) component := by
  unfold VersionCatalog.effective
  cases tags with
  | none => rfl
  | some tags =>
    rw [Option.bind_some, Option.getD_some]
    cases tags.get? component <;> rfl

variable {catalog tags}

/-- The image of a version of a component. -/
def imageOf (x : String × String × String) (tag : String) : String := s!"{x.2.2}{x.2.1}:{tag}"

/-- The loop adds the image of the selected version of each component, all of which
are well formed. -/
theorem addImages_ok : ∀ {l : List (String × String × String)} {images images' : BTreeMap String String},
    (l.map Prod.fst).Nodup → l.foldlM (addImage catalog tags) images = .ok images' →
      (∀ x ∈ l, ∃ tag, catalog.effective (tags.getD ∅) x.1 = some tag ∧ WellFormedTag tag ∧
        images'.get? x.1 = some (imageOf x tag)) ∧
      ∀ key ∉ l.map Prod.fst, images'.get? key = images.get? key
  | [], images, images', _, h => by
    cases h
    exact ⟨nofun, fun _ _ => rfl⟩
  | x :: l, images, images', hnodup, h => by
    obtain ⟨hx, hnodup⟩ := List.nodup_cons.1 hnodup
    rw [List.foldlM_cons] at h
    obtain ⟨added, hadded, h⟩ := bind_ok h
    obtain ⟨hrest, hother⟩ := addImages_ok hnodup h
    unfold addImage at hadded
    split at hadded
    · cases hadded
    · next tag htag =>
      obtain ⟨⟨⟩, hvalid, hadded⟩ := bind_ok hadded
      cases hadded
      have hmine : images'.get? x.1 = some (imageOf x tag) := by
        rw [hother x.1 hx, BTreeMap.get?_insert, if_pos rfl]
        rfl
      refine ⟨List.forall_mem_cons.2 ⟨⟨tag, htag, validateTag_ok.1 hvalid, hmine⟩, hrest⟩, fun key hkey => ?_⟩
      rw [List.map_cons, List.mem_cons, not_or] at hkey
      rw [hother key hkey.2, BTreeMap.get?_insert, if_neg hkey.1]

theorem addImages_total : ∀ {l : List (String × String × String)} (images : BTreeMap String String),
    (∀ x ∈ l, ∃ tag, catalog.effective (tags.getD ∅) x.1 = some tag ∧ WellFormedTag tag) →
      ∃ images', l.foldlM (addImage catalog tags) images = .ok images'
  | [], images, _ => ⟨images, rfl⟩
  | x :: l, images, h => by
    obtain ⟨⟨tag, htag, hvalid⟩, hrest⟩ := List.forall_mem_cons.1 h
    have hadded : addImage catalog tags images x = .ok (images.insert x.1 s!"{x.2.2}{x.2.1}:{tag}") := by
      unfold addImage
      rw [htag]
      dsimp only
      rw [validateTag_ok.2 hvalid]
      rfl
    obtain ⟨images', himages⟩ := addImages_total (images.insert x.1 s!"{x.2.2}{x.2.1}:{tag}") hrest
    refine ⟨images', ?_⟩
    rw [List.foldlM_cons, hadded]
    exact himages

/-- The platform's own images. -/
def platformImages : BTreeMap String String :=
  BTreeMap.ofList [("signer", DEFAULT_SIGNER_IMAGE), ("faucet", "signet-faucet:dev")]

/-- The explorer pod pins backend and frontend to the same tag. -/
def addFrontend (images : BTreeMap String String) : BTreeMap String String :=
  match images.get? "explorer" with
  | some backend => images.insert "explorer-web" (replacen backend "mempool/backend" "mempool/frontend")
  | none => images

theorem addFrontend_get? {images : BTreeMap String String} {key : String} (h : key ≠ "explorer-web") :
    (addFrontend images).get? key = images.get? key := by
  unfold addFrontend
  split
  · rw [BTreeMap.get?_insert, if_neg h]
  · rfl

variable (catalog tags)

theorem resolveImages_eq : resolveImages catalog tags = (do
    (tags.getD ∅).values.forM validateTag
    (catalog.validateSelection (tags.getD ∅)).mapError .incompatible
    let images ← VERSIONED_COMPONENTS.foldlM (addImage catalog tags) platformImages
    return addFrontend images) := by
  have hloop : (fun (images : BTreeMap String String) (x : String × String × String) =>
      match ((tags.bind fun tags => tags.get? x.1).or (catalog.defaultVersion x.1)) with
      | none => .error (.unknownComponent x.1)
      | some tag => do
        validateTag tag
        return images.insert x.1 s!"{x.2.2}{x.2.1}:{tag}") = addImage catalog tags := by
    funext images x
    rw [effective_eq]
    rfl
  rw [← hloop]
  rfl

/-- What is resolved: the images of the selected versions and the platform's own, and the
frontend of the explorer. -/
theorem resolveImages_ok {images : BTreeMap String String} (h : resolveImages catalog tags = .ok images) :
    Compatible catalog (tags.getD ∅) ∧ ∃ added, images = addFrontend added ∧
      (∀ x ∈ VERSIONED_COMPONENTS, ∃ tag, catalog.effective (tags.getD ∅) x.1 = some tag ∧
        added.get? x.1 = some (imageOf x tag)) ∧
      ∀ key ∉ VERSIONED_COMPONENTS.map Prod.fst, added.get? key = platformImages.get? key := by
  have hkeys : (VERSIONED_COMPONENTS.map Prod.fst).Nodup := by decide
  rw [resolveImages_eq] at h
  obtain ⟨⟨⟩, htags, h⟩ := bind_ok h
  obtain ⟨⟨⟩, hselection, h⟩ := bind_ok h
  obtain ⟨added, hadded, himages⟩ := bind_ok h
  cases himages
  obtain ⟨hpins, hrequirements⟩ := (validateSelection_ok _ _).1 (mapError_ok hselection)
  obtain ⟨hcomponents, hothers⟩ := addImages_ok hkeys hadded
  refine ⟨{ hrequirements with pins := fun htag => ⟨?_, hpins htag⟩, components := ?_ },
    added, rfl, ?_, hothers⟩
  · exact validateTag_ok.1 (forM_ok.1 htags _ (BTreeMap.mem_values_iff.2 ⟨_, htag⟩))
  · intro x hx
    obtain ⟨tag, htag, hvalid, -⟩ := hcomponents x hx
    exact ⟨tag, htag, hvalid⟩
  · intro x hx
    obtain ⟨tag, htag, -, himage⟩ := hcomponents x hx
    exact ⟨tag, htag, himage⟩

/-- The versions that a selection deploys meet the requirements of each other. -/
def NoneViolated : Prop := ∀ x ∈ VERSIONED_COMPONENTS, ∀ y ∈ VERSIONED_COMPONENTS,
  ∀ versions version entry constraint deployed, catalog.entries.get? x.1 = some versions →
    catalog.effective (tags.getD ∅) x.1 = some version → versions.get? version = some entry →
    entry.requires.get? y.1 = some constraint →
    catalog.effective (tags.getD ∅) y.1 = some deployed → satisfies deployed constraint = true

/-- **Resolved versions.** Images are resolved exactly for the compatible selections;
each component then has the image of the version that is selected for it, and none of
these violates what another requires. -/
theorem resolveImages_resolves (catalog : VersionCatalog) (tags : Option (BTreeMap String String)) :
    ((∃ images, resolveImages catalog tags = .ok images) ↔ Compatible catalog (tags.getD ∅)) ∧
      ∀ images, resolveImages catalog tags = .ok images →
        (∀ x ∈ VERSIONED_COMPONENTS, ∃ tag, catalog.effective (tags.getD ∅) x.1 = some tag ∧
          images.get? x.1 = some (imageOf x tag)) ∧ NoneViolated catalog tags := by
  have hresolved : ∀ images, resolveImages catalog tags = .ok images →
      Compatible catalog (tags.getD ∅) ∧ ∀ x ∈ VERSIONED_COMPONENTS, ∃ tag,
        catalog.effective (tags.getD ∅) x.1 = some tag ∧ images.get? x.1 = some (imageOf x tag) := by
    intro images h
    obtain ⟨hcompatible, added, rfl, hversions, -⟩ := resolveImages_ok catalog tags h
    refine ⟨hcompatible, fun x hx => ?_⟩
    obtain ⟨tag, htag, himage⟩ := hversions x hx
    have hkey : x.1 ≠ "explorer-web" := by
      have hall : ∀ x ∈ VERSIONED_COMPONENTS, x.1 ≠ "explorer-web" := by decide
      exact hall x hx
    exact ⟨tag, htag, (addFrontend_get? hkey).trans himage⟩
  refine ⟨⟨?_, fun h => ?_⟩, fun images himages => ?_⟩
  · rintro ⟨images, himages⟩
    exact (hresolved images himages).1
  · obtain ⟨added, hadded⟩ := addImages_total platformImages h.components
    have htags : (tags.getD ∅).values.forM validateTag = .ok () := forM_ok.2 fun tag htag => by
      obtain ⟨component, hcomponent⟩ := BTreeMap.mem_values_iff.1 htag
      exact validateTag_ok.2 (h.pins hcomponent).1
    have hselection := (validateSelection_ok catalog (tags.getD ∅)).2
      ⟨fun htag => (h.pins htag).2, h.toRequirements⟩
    refine ⟨addFrontend added, ?_⟩
    rw [resolveImages_eq, htags, hselection]
    change (do
      let images ← VERSIONED_COMPONENTS.foldlM (addImage catalog tags) platformImages
      return addFrontend images) = _
    rw [hadded]
    rfl
  · obtain ⟨hcompatible, hdeployed⟩ := hresolved images himages
    exact ⟨hdeployed, fun x _ y _ versions version entry constraint deployed hversions hversion hentry
      hrequires hdep => hcompatible.met hversions hversion hentry hrequires hdep⟩

end SignetSandbox
