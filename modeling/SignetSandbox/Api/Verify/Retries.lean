import SignetSandbox.Api.Verify.Merging
import SignetSandbox.Api.Verify.Strikes

/-!
# Repeated updates

An update whose one failing create has stopped it, and the same update once more.
What was applied before the failure is in the way of the second attempt, except
for a TLS secret; and the ports that it exposes are not recorded.
-/

namespace SignetSandbox

open Interleave Prog Handler

/-- What an update has found when it compares the lists of `row`. -/
structure Reached (w : World) (caller : String) (params : UpdateParams) (row : EnvironmentRow) : Prop
    extends Extending w.db caller params row where
  owned : row.npubOwner = caller
  present : w.cluster.Exists (Cluster.nsKey (namespaceFor row.id.shortId))

/-- The images of the row can be told. -/
def Pictured (state : AppState) (row : EnvironmentRow) : Prop :=
  (∃ images, row.versions = some (.ok images)) ∨
    (row.versions = none ∧ ∃ images, resolveImages state.catalog none = .ok images)

/-- What an update needs to add instances to `row`. -/
structure Provisions (state : AppState) (w : World) (caller : String) (params : UpdateParams)
    (row : EnvironmentRow) : Prop extends Reached w caller params row where
  pictured : Pictured state row
  ported : ∃ ports, w.db.triplesFor (w.db.additions row.id params.lightning) = some ports

/-- The update is not rejected. -/
def Goes (state : AppState) (w : World) (caller : String) (params : UpdateParams) : Prop :=
  ∃ row, (Reached w caller params row ∧ w.db.additions row.id params.lightning = []) ∨
    Provisions state w caller params row

section Updates

variable {state : AppState} {strike : Option Strike} {id : Id} {caller : String}
  {params : UpdateParams} {w : World} {R : Response → World → Prop}

theorem not_mayFail_under : ¬MayFail (Under strike) := by
  rintro ⟨c, op, w, hadm, hfault⟩
  exact hfault (Option.isNone_iff_eq_none.1 hadm.1)

/-- Whatever a bundle is made of, it is answered. -/
theorem onWorld_bundleResponse {adm : Choice → Op → World → Prop} {row : EnvironmentRow}
    {status : EnvStatus} {Q : Response → World → Prop}
    (hQ : ∀ response w', response.Succeeds → Q response w') :
    OnWorld adm (bundleResponse state id row status) Q R w := by
  refine Concludes.bind (concludes_lift (maintains_of_wp fun rpcAuth w1 _ => ?_))
  exact Concludes.bind (concludes_lift (maintains_of_wp fun lightning w2 _ => hQ _ w2 rfl))

theorem onWorld_spawnLightningMesh {adm : Choice → Op → World → Prop} {envId : Uuid}
    {names : List String} {Q : Unit → World → Prop} (hQ : ∀ w', Q () w') :
    OnWorld adm (spawnLightningMesh envId names) Q R w := by
  unfold spawnLightningMesh
  split
  · exact concludes_pure (hQ w)
  · exact concludes_draw fun _ _ _ _ _ => ⟨trivial, hQ _⟩

theorem onWorld_storedImages {adm : Choice → Op → World → Prop} {row : EnvironmentRow}
    {Q : BTreeMap String String → World → Prop} (hQ : ∀ images, Pictured state row → Q images w)
    (hR : ¬Pictured state row → ∀ code message, R (.err id code message) w) :
    OnWorld adm (storedImages state id row) Q R w := by
  unfold storedImages
  split
  · next versions hversions =>
    refine concludes_orReject (fun images himages => ?_) fun e he => hR ?_ _ _
    · subst himages
      exact hQ images (.inl ⟨images, hversions⟩)
    · subst he
      rintro (⟨images, himages⟩ | ⟨hnone, -⟩)
      · cases hversions.symm.trans himages
      · cases hversions.symm.trans hnone
  · next hversions =>
    refine concludes_orReject (fun images himages => ?_) fun e he => hR ?_ _ _
    · exact hQ images (.inr ⟨hversions, images, himages⟩)
    · rintro (⟨images, himages⟩ | ⟨-, images, himages⟩)
      · cases hversions.symm.trans himages
      · cases he.symm.trans himages

/-- An update while a create may be struck: it is rejected before any call, has
nothing to add, or goes as the adding of its instances goes. -/
theorem onWorld_environmentUpdate {Q : Response → World → Prop}
    (hnil : ∀ row, Reached w caller params row → w.db.additions row.id params.lightning = [] →
      ∀ response w', response.Succeeds → Q response w')
    (hadd : ∀ row images ports, Provisions state w caller params row →
      w.db.additions row.id params.lightning ≠ [] →
      w.db.triplesFor (w.db.additions row.id params.lightning) = some ports → ∀ password : String,
        Ends (alone (Under strike)) () (state.orchestrator.addLightningInstances state.crates
          row.id.shortId ((w.db.additions row.id params.lightning).zip ports) images password)
            (fun _ _ => ∀ response w', response.Succeeds → Q response w')
            (fun _ w' => ∀ code message, R (.err id code message) w') w)
    (hR : ¬Goes state w caller params → ∀ code message w', R (.err id code message) w') :
    OnWorld (Under strike) (environmentUpdate state id caller (.ok params)) Q R w := by
  have hview : ∀ w' : World, w' = w → w'.db = w.db := fun _ h => congrArg World.db h
  have hreject : (∀ row, Reached w caller params row → (w.db.additions row.id params.lightning ≠ [] ∧
      ¬Provisions state w caller params row)) → ∀ code message w', R (.err id code message) w' := by
    intro hno
    refine hR ?_
    rintro ⟨row, ⟨hreached, hnone⟩ | hprovisions⟩
    · exact (hno row hreached).1 hnone
    · exact (hno row hprovisions.toReached).2 hprovisions
  refine Concludes.bind (concludes_orReject (fun params' hparams => ?_) fun e he => ?_)
  · cases hparams
    refine (concludes_ownedEnvironment hview trivial (fun row hrow howner => ?_)
      fun hwhy code message _ => ?_).bind
    · have hother : (Reached w caller params row → False) → ∀ code message w', R (.err id code message) w' := by
        refine fun hno => hreject fun row' hreached => ?_
        cases hrow.symm.trans hreached.found
        exact (hno hreached).elim
      refine (onWorld_reconcileReaped (fun hwhy => ?_) fun w' hreaped => ?_).bind
      · refine (concludes_check (fun hstatus => ?_) fun hstatus => ?_).bind
        · have hpresent : w.cluster.Exists (Cluster.nsKey (namespaceFor row.id.shortId)) := by
            rcases hwhy with hdead | hthere | ⟨c, key, hadm, hfault⟩
            · rw [hstatus] at hdead
              cases hdead
            · exact hthere
            · exact absurd hadm.2.2 hfault
          refine (concludes_orReject (fun _ haccepted => ?_) fun e he => ?_).bind
          · have hread : (Stmt.getLightningInstances row.id).Reads := trivial
            refine (concludes_read hview hread trivial (fun _ => ?_) fun hfail _ => ?_).bind
            · refine (concludes_orReject (fun existing hexisting => ?_) nofun).bind
              cases hexisting
              split
              · next e hremoved =>
                refine hother (fun hreached => ?_) _ _ w
                cases hremoved.symm.trans hreached.none_removed
              · next hkept =>
                have hreached : Reached w caller params row :=
                  ⟨⟨hrow, hstatus, haccepted, hkept⟩, howner, hpresent⟩
                split
                · next hempty => exact onWorld_bundleResponse (hnil row hreached (List.isEmpty_iff.1 hempty))
                · next hne =>
                  have hmore : w.db.additions row.id params.lightning ≠ [] :=
                    fun hempty => hne (List.isEmpty_iff.2 hempty)
                  have hshort : ¬Provisions state w caller params row →
                      ∀ code message, R (.err id code message) w := by
                    refine fun hno code message => hreject (fun row' hreached' => ?_) code message w
                    cases hrow.symm.trans hreached'.found
                    exact ⟨hmore, hno⟩
                  refine Concludes.bind (onWorld_storedImages (fun images hpictured => ?_)
                    fun hno => hshort fun h => hno h.pictured)
                  refine Concludes.bind (Concludes.bind (concludes_nextLightningPorts hview trivial
                    (fun ports hports => ?_) fun hwhy => hshort fun h => ?_))
                  · have hprovisions : Provisions state w caller params row :=
                      ⟨hreached, hpictured, ports, hports⟩
                    refine Concludes.bind (concludes_draw fun c w1 hw1 _ _ => ⟨trivial, ?_⟩)
                    obtain rfl := hw1
                    refine Concludes.bind (onWorld_attempt ((hadd row images ports hprovisions hmore hports
                      _).mono (fun _ w2 hok => ?_) fun e w2 herr => ?_))
                    · refine (concludes_orReject (fun _ _ => ?_) nofun).bind
                      refine Concludes.bind (concludes_draw fun c' w3 _ _ _ => ⟨trivial, ?_⟩)
                      exact onWorld_spawnLightningMesh fun w4 => onWorld_bundleResponse hok
                    · exact (concludes_orReject nofun fun _ _ => herr _ _).bind
                  · obtain ⟨ports, hports⟩ := h.ported
                    rcases hwhy with hnone | hfail
                    · cases hnone.symm.trans hports
                    · exact not_mayFail_under hfail
            · exact absurd hfail not_mayFail_under
          · refine hother (fun hreached => ?_) _ _ w
            cases he.symm.trans hreached.accepted
        · exact hother (fun hreached => hstatus hreached.ready) _ _ w
      · refine (concludes_check (fun hstatus => by cases hstatus) fun _ => ?_).bind
        exact hother (fun hreached => hreaped.2.1 hreached.present) _ _ w'
    · refine hreject (fun row hreached => ?_) code message w
      rcases hwhy with hno | hfail
      · exact absurd ⟨row, hreached.found, hreached.owned⟩ hno
      · exact absurd hfail not_mayFail_under
  · cases he

/-- Without a failure, the update succeeds. -/
def Unhindered (state : AppState) (w : World) (caller : String) (params : UpdateParams) : Prop :=
  ∃ row, (Reached w caller params row ∧ w.db.additions row.id params.lightning = []) ∨
    (Provisions state w caller params row ∧
      w.cluster.Exists (walletKey (namespaceFor row.id.shortId)) ∧
      Free state.orchestrator (namespaceFor row.id.shortId) (w.db.additions row.id params.lightning) w)

theorem fst_zip_of_triples {db : Db} {instances : List LightningInstance} {ports : List Int}
    (h : db.triplesFor instances = some ports) : (instances.zip ports).map (·.1) = instances := by
  obtain ⟨hlen, -⟩ := Db.allocateTriples_spec h
  exact List.map_fst_zip hlen.ge

/-- An update without failures succeeds exactly when nothing is in its way. -/
theorem update_succeeds_iff {w' : World} {response : Response} (hsigns : Signs state.crates)
    (hr : Runs (alone (Under none)) () (environmentUpdate state id caller (.ok params)).toResponse w
      response w') : response.Succeeds ↔ Unhindered state w caller params := by
  have hworld : OnWorld (Under none) (environmentUpdate state id caller (.ok params))
      (fun response _ => response.Succeeds ∧ Unhindered state w caller params)
      (fun response _ => ¬response.Succeeds ∧ ¬Unhindered state w caller params) w := by
    refine onWorld_environmentUpdate
      (fun row hreached hnil response _ hok => ⟨hok, row, .inl ⟨hreached, hnil⟩⟩)
      (fun row images ports hprovisions hmore hports password => ?_)
      fun hno code message _ => ⟨nofun, fun hyes => hno ?_⟩
    · have hsame := fst_zip_of_triples hports
      refine (addLightningInstances_clear hsigns row.id.shortId _ _).mono (fun _ _ hfree => ?_)
        fun _ _ hno code message => ⟨nofun, ?_⟩
      · rw [hsame] at hfree
        exact fun response _ hok => ⟨hok, row, .inr ⟨hprovisions, hfree⟩⟩
      · rintro ⟨row', ⟨hreached, hnil⟩ | ⟨hprovisions', hfree⟩⟩
        · cases hprovisions.found.symm.trans hreached.found
          exact hmore hnil
        · cases hprovisions.found.symm.trans hprovisions'.found
          rw [hsame] at hno
          exact hno hfree
    · obtain ⟨row, hnil | ⟨hprovisions, -⟩⟩ := hyes
      · exact ⟨row, .inl hnil⟩
      · exact ⟨row, .inr hprovisions⟩
  rcases runs_toResponse hworld hr with ⟨hok, hyes⟩ | ⟨hno, hno'⟩
  · exact iff_of_true hok hyes
  · exact iff_of_false hno hno'

/-- With nothing to add, nothing can be struck. -/
theorem update_nothing {row : EnvironmentRow} (hreached : Reached w caller params row)
    (hnil : w.db.additions row.id params.lightning = []) :
    OnWorld (Under strike) (environmentUpdate state id caller (.ok params))
      (fun response _ => response.Succeeds) (fun _ _ => False) w := by
  refine onWorld_environmentUpdate (fun _ _ _ _ _ hok => hok)
    (fun row' images ports hprovisions hmore _ password => ?_)
    fun hno => absurd ⟨row, .inl ⟨hreached, hnil⟩⟩ hno
  cases hreached.found.symm.trans hprovisions.found
  exact absurd hnil hmore

/-- What an update leaves that only a strike has stopped. -/
theorem update_struck {s : Strike} {row : EnvironmentRow} {inst : LightningInstance}
    {rest : List LightningInstance} (hsigns : Signs state.crates)
    (hprovisions : Provisions state w caller params row)
    (hadditions : w.db.additions row.id params.lightning = inst :: rest)
    (hwallet : w.cluster.Exists (walletKey (namespaceFor row.id.shortId)))
    (hfree : Free state.orchestrator (namespaceFor row.id.shortId) (inst :: rest) w) :
    OnWorld (Under (some s)) (environmentUpdate state id caller (.ok params))
      (fun response _ => response.Succeeds)
      (fun _ w' => Grew w w' ∧ ((s.Harmless (namespaceFor row.id.shortId) inst ∧ Quietly w w') ∨
        (¬s.Harmless (namespaceFor row.id.shortId) inst ∧
          w'.cluster.Exists (lndServiceKey (namespaceFor row.id.shortId) inst)))) w := by
  refine onWorld_environmentUpdate (fun _ _ _ _ _ hok => hok)
    (fun row' images ports hprovisions' _ hports password => ?_)
    fun hno => absurd ⟨row, .inr hprovisions⟩ hno
  cases hprovisions.found.symm.trans hprovisions'.found
  rw [hadditions] at hports ⊢
  have hsame := fst_zip_of_triples hports
  cases ports with
  | nil => cases hsame
  | cons port ports =>
    rw [List.zip_cons_cons] at hsame ⊢
    have hrest : (rest.zip ports).map (·.1) = rest := (List.cons.inj hsame).2
    refine (addLightningInstances_struck hsigns row.id.shortId _ hwallet ?_).mono
      (fun _ _ _ _ _ hok => hok) fun _ _ h _ _ => h
    rw [hrest]
    exact hfree

end Updates

/-! ## The second attempt -/

/-- The lightning ports that a service of the namespace exposes are held. -/
def PortsRecorded (ns : String) (w : World) : Prop :=
  ∀ o ∈ w.cluster.objects, o.key.ns = some ns → ∀ app port, o.lndExposure? = some (app, port) →
    ∀ p ∈ Db.triple port, p ∈ w.db.heldLightningPorts

section Retries

variable {state : AppState} {id : Id} {caller : String} {params : UpdateParams} {w w1 w2 : World}

theorem PortsRecorded.of_quietly {ns : String} (h : PortsRecorded ns w) (hquiet : Quietly w w1) :
    PortsRecorded ns w1 := by
  intro o ho hns app port hexposed p hp
  rw [hquiet.grew.db]
  rcases hquiet.exposed o ho with hnone | ⟨o', ho', hkey, hsame⟩
  · cases hnone.symm.trans hexposed
  · exact h o' ho' (hkey ▸ hns) app port (hsame ▸ hexposed) p hp

theorem Provisions.of_grew {row : EnvironmentRow} (h : Provisions state w caller params row)
    (hgrew : Grew w w1) : Provisions state w1 caller params row := by
  refine ⟨⟨?_, h.owned, hgrew.there _ h.present⟩, h.pictured, ?_⟩
  · rw [hgrew.db]
    exact h.toExtending
  · rw [hgrew.db]
    exact h.ported

/-- New secrets are in nobody's way. -/
theorem Free.of_quietly {orch : Orchestrator} {ns : String} {instances : List LightningInstance}
    (h : Free orch ns instances w) (hquiet : Quietly w w1) : Free orch ns instances w1 where
  active hne := hquiet.grew.active _ (h.active hne)
  named := h.named
  nodup := h.nodup
  free k hk hthere := by
    rcases hquiet.only k hthere with hold | hsecret
    · exact h.free k hk hold
    · obtain ⟨inst, -, hkey⟩ := List.mem_flatMap.1 hk
      exact kind_of_mem_lndPlain hkey hsecret

/-- An update that one failing create has stopped leaves nothing behind that matters
exactly when it stopped at the TLS secret of the first added instance, or before its
service was there. -/
theorem update_retry_iff {strike : Strike} {row : EnvironmentRow} {w0 : World}
    {response0 response response' : Response} (hsigns : Signs state.crates)
    (hrow : w.db.resolve caller params.id = some row)
    (hrecorded : PortsRecorded (namespaceFor row.id.shortId) w)
    (hr0 : Runs (alone (Under none)) () (environmentUpdate state id caller (.ok params)).toResponse w
      response0 w0) (hclear : response0.Succeeds)
    (hr : Runs (alone (Under (some strike))) ()
      (environmentUpdate state id caller (.ok params)).toResponse w response w1)
    (hfails : ¬response.Succeeds)
    (hr' : Runs (alone (Under none)) () (environmentUpdate state id caller (.ok params)).toResponse w1
      response' w2) :
    (PortsRecorded (namespaceFor row.id.shortId) w1 ∧ response'.Succeeds) ↔
      ∃ inst, (w.db.additions row.id params.lightning).head? = some inst ∧
        strike.Harmless (namespaceFor row.id.shortId) inst := by
  have hretry := update_succeeds_iff hsigns hr'
  obtain ⟨row', hcase⟩ := (update_succeeds_iff hsigns hr0).1 hclear
  have hsame : row' = row := by
    rcases hcase with ⟨hreached, -⟩ | ⟨hprovisions, -⟩
    · exact Option.some.inj (hreached.found.symm.trans hrow)
    · exact Option.some.inj (hprovisions.found.symm.trans hrow)
  subst hsame
  rcases hcase with ⟨hreached, hnil⟩ | ⟨hprovisions, hwallet, hfree⟩
  · rcases runs_toResponse (update_nothing hreached hnil) hr with hok | hno
    · exact absurd hok hfails
    · exact hno.elim
  · cases hadditions : w.db.additions row'.id params.lightning with
    | nil =>
      rcases runs_toResponse (update_nothing hprovisions.toReached hadditions) hr with hok | hno
      · exact absurd hok hfails
      · exact hno.elim
    | cons inst rest =>
      rw [hadditions] at hfree
      rcases runs_toResponse (update_struck hsigns hprovisions hadditions hwallet hfree) hr with
        hok | ⟨hgrew, hleft⟩
      · exact absurd hok hfails
      · have hprovisions1 := hprovisions.of_grew hgrew
        have hadditions1 : w1.db.additions row'.id params.lightning = inst :: rest := by
          rw [hgrew.db, hadditions]
        rcases hleft with ⟨hharmless, hquiet⟩ | ⟨hharmful, hthere⟩
        · refine iff_of_true ⟨hrecorded.of_quietly hquiet, hretry.2 ⟨row', .inr ⟨hprovisions1, ?_⟩⟩⟩
            ⟨inst, rfl, hharmless⟩
          rw [hadditions1]
          exact ⟨hgrew.there _ hwallet, hfree.of_quietly hquiet⟩
        · refine iff_of_false (fun h => ?_) ?_
          · obtain ⟨row'', hcase⟩ := hretry.1 h.2
            rcases hcase with ⟨hreached, hnil⟩ | ⟨hprovisions', -, hfree'⟩
            · cases hprovisions1.found.symm.trans hreached.found
              cases hadditions1.symm.trans hnil
            · cases hprovisions1.found.symm.trans hprovisions'.found
              rw [hadditions1] at hfree'
              refine hfree'.free _ ?_ hthere
              rw [List.flatMap_cons]
              exact List.mem_append_left _ List.mem_cons_self
          · rintro ⟨inst', hhead, hharmless⟩
            obtain rfl : inst = inst' := Option.some.inj hhead
            exact hharmful hharmless

end Retries

/-- The create of the TLS secret of a node times out. -/
def secretStrike (name : String) : Strike :=
  ⟨lndSecretKey "env-000000000000" ⟨name, .lnd⟩, ⟨.other "timeout", false⟩⟩

/-- An update of `a` that asks for two instances, under a strike. -/
abbrev updateTwo (strike : Option Strike) (w : World) (response : Response) (w' : World) : Prop :=
  Runs (alone (Under strike)) ()
    (environmentUpdate sampleState (.number 1) "npub" (.ok askForTwo)).toResponse w response w'

/-- The same, under these choices. -/
def playTwo (strike : Option Strike) (choices : List Choice) (w : World) : Option (Response × World) :=
  runAlone (alone (Under strike)) () choices
    (environmentUpdate sampleState (.number 1) "npub" (.ok askForTwo)).toResponse w

/-- The choices under which operation `n` is struck. -/
def struckAt (n : Nat) : List Choice :=
  List.replicate n ({} : Choice) ++ [{ kubeFault := some ⟨.other "timeout", false⟩ }]

theorem signs_sample : Signs sampleState.crates := ⟨fun _ => ⟨_, rfl⟩, fun _ _ _ _ _ => ⟨_, rfl⟩⟩

theorem portsRecorded_sample : PortsRecorded "env-000000000000" (sampleWorld .ready) := by
  intro o ho _ app port hexposed
  simp only [sampleWorld, List.mem_cons, List.not_mem_nil, or_false] at ho
  rcases ho with rfl | rfl | rfl <;> cases hexposed

/-- The update goes through, fails where it is struck, and is tried again. -/
theorem askForTwo_runs (name : String) (n : Nat) (retried : Bool)
    (hplay : ((playTwo (some (secretStrike name)) (struckAt n) (sampleWorld .ready)).any fun r =>
      !decide r.1.Succeeds && (playTwo none (List.replicate 40 {}) r.2).any fun r' =>
        decide r'.1.Succeeds == retried) = true) :
    (∃ response0 w0, updateTwo none (sampleWorld .ready) response0 w0 ∧ response0.Succeeds) ∧
      ∃ response w1 response' w2, updateTwo (some (secretStrike name)) (sampleWorld .ready) response w1 ∧
        ¬response.Succeeds ∧ updateTwo none w1 response' w2 ∧
          decide response'.Succeeds = retried := by
  have hclear : ((playTwo none (List.replicate 40 {}) (sampleWorld .ready)).any fun r =>
      decide r.1.Succeeds) = true := by
    decide +kernel
  obtain ⟨⟨response0, w0⟩, hr0, hok⟩ := (Option.any_eq_true _ _).1 hclear
  obtain ⟨⟨response, w1⟩, hr, hplay⟩ := (Option.any_eq_true _ _).1 hplay
  rw [Bool.and_eq_true, Bool.not_eq_true'] at hplay
  obtain ⟨⟨response', w2⟩, hr', hretried⟩ := (Option.any_eq_true _ _).1 hplay.2
  exact ⟨⟨response0, w0, runs_of_runAlone hr0, of_decide_eq_true hok⟩, response, w1, response', w2,
    runs_of_runAlone hr, of_decide_eq_false hplay.1, runs_of_runAlone hr', eq_of_beq hretried⟩

theorem update_retry_sample : ∃ response w1 response' w2,
    updateTwo (some (secretStrike "x")) (sampleWorld .ready) response w1 ∧ ¬response.Succeeds ∧
      updateTwo none w1 response' w2 ∧
      PortsRecorded "env-000000000000" w1 ∧ response'.Succeeds := by
  obtain ⟨⟨response0, w0, hr0, hclear⟩, response, w1, response', w2, hr, hfails, hr', -⟩ :=
    askForTwo_runs "x" 9 true (by decide +kernel)
  have hrow : (sampleWorld .ready).db.resolve "npub" "a" = some (sampleRow .ready) := rfl
  have hns : namespaceFor (sampleRow .ready).id.shortId = "env-000000000000" := by decide +kernel
  have hhead : ((sampleWorld .ready).db.additions (sampleRow .ready).id askForTwo.lightning).head? =
      some ⟨"x", .lnd⟩ := by
    decide +kernel
  have hretry := update_retry_iff signs_sample hrow (hns ▸ portsRecorded_sample) hr0 hclear hr hfails hr'
  rw [hns, hhead] at hretry
  exact ⟨response, w1, response', w2, hr, hfails, hr', hretry.2 ⟨_, rfl, .inl rfl⟩⟩

/-- The TLS secret of the second instance cannot be created: the first one exposes
ports that are not held, and is in the way of a second attempt. -/
theorem second_attempt_conflicts : ¬∀ (state : AppState) (id : Id) (caller : String)
    (params : UpdateParams) (w : World) (row : EnvironmentRow) (strike : Strike)
    (response response' : Response) (w1 w2 : World), Signs state.crates →
    w.db.resolve caller params.id = some row → row.status = .ready →
    PortsRecorded (namespaceFor row.id.shortId) w →
    (∃ response0 w0, Runs (alone (Under none)) ()
      (environmentUpdate state id caller (.ok params)).toResponse w response0 w0 ∧
        response0.Succeeds) →
    Runs (alone (Under (some strike))) ()
      (environmentUpdate state id caller (.ok params)).toResponse w response w1 →
    ¬response.Succeeds →
    Runs (alone (Under none)) ()
      (environmentUpdate state id caller (.ok params)).toResponse w1 response' w2 →
    PortsRecorded (namespaceFor row.id.shortId) w1 ∧ response'.Succeeds := by
  intro h
  obtain ⟨hclear, response, w1, response', w2, hr, hfails, hr', hretried⟩ :=
    askForTwo_runs "y" 15 false (by decide +kernel)
  have hns : namespaceFor (sampleRow .ready).id.shortId = "env-000000000000" := by decide +kernel
  have hafter := (h sampleState (.number 1) "npub" askForTwo (sampleWorld .ready) (sampleRow .ready)
    (secretStrike "y") response response' w1 w2 signs_sample rfl rfl (hns ▸ portsRecorded_sample)
    hclear hr hfails hr').2
  exact of_decide_eq_false hretried hafter

end SignetSandbox
