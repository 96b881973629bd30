import SignetSandbox.Cli.Verify.Refs

/-!
# Which images end up in the node

A node and a docker on the host in which pulls and imports succeed (`Images`), and what
`ensure_images` leaves in that node.
-/

namespace SignetSandbox.Local

open Interleave Prog

/-! ## The node and the host -/

/-- The refs in the node, the images of docker on the host by their normalised names, the
archives on their way, and what was printed. -/
structure Images where
  node : List String
  host : List String
  archive : Option String
  copied : Option String
  printed : List Line
deriving DecidableEq

namespace Images

/-- `ctr images` in the node: what it prints, or `none` where it fails. Tagging fails when the
source is missing or the target exists. -/
def ctr (s : Images) : List String → Option (String × Images)
  | ["ls", "-q"] => some (String.join (s.node.map (· ++ "\n")), s)
  | ["pull", r] => some ("", { s with node := r :: s.node })
  | ["tag", source, target] =>
    if source ∈ s.node ∧ target ∉ s.node then some ("", { s with node := target :: s.node })
    else none
  | _ => none

/-- The commands of docker that the program runs. An imported image has its normalised name. -/
def docker (s : Images) : List String → Option (String × Images)
  | ["image", "inspect", r] => if normalize r ∈ s.host then some ("", s) else none
  | ["save", "-o", _, r] =>
    if normalize r ∈ s.host then some ("", { s with archive := some (normalize r) }) else none
  | ["cp", _, _] => some ("", { s with copied := s.archive })
  | ["exec", _, "sh", "-c", _] => some ("", { s with node := s.copied.toList ++ s.node })
  | "exec" :: _ :: "ctr" :: "-n" :: _ :: "-a" :: _ :: "images" :: args => s.ctr args
  | _ => none

def serve : (op : ImageOp) → Images → op.Reply × Images
  | .output command, s =>
    match s.docker command.args with
    | some (stdout, s') => (.ok ⟨true, stdout, ""⟩, s')
    | none => (.ok ⟨false, "", "failed"⟩, s)
  | .removeFile _, s => (.ok (), s)
  | .println line, s => ((), { s with printed := s.printed ++ [line] })

end Images

variable {α β : Type} {s : Images}

/-- A program before the node and the host. -/
def go (p : OnImages α) (s : Images) : α × Images := p.served Images.serve s

theorem go_bind (p : OnImages α) (f : α → OnImages β) (s : Images) :
    go (p >>= f) s = go (f (go p s).1) (go p s).2 := served_bind p f s

theorem go_bind_ok {x : Ensure α} {f : α → Ensure β} {a : α} {s' : Images}
    (h : go x.run s = (.ok a, s')) : go (x >>= f).run s = go (f a).run s' := by
  rw [ExceptT.run_bind, go_bind, h]

theorem go_bind_error {x : Ensure α} {f : α → Ensure β} {e : String} {s' : Images}
    (h : go x.run s = (.error e, s')) : go (x >>= f).run s = (.error e, s') := by
  rw [ExceptT.run_bind, go_bind, h]
  rfl

theorem go_lift_bind (p : OnImages α) (f : α → Ensure β) (s : Images) :
    go ((liftM p : Ensure α) >>= f).run s = go (f (go p s).1).run (go p s).2 := by
  apply go_bind_ok
  change go ((fun a => Except.ok a) <$> p) s = _
  rw [map_eq_pure_bind, go_bind]
  rfl

/-! ## Single commands -/

theorem go_list : go nodeImageList s = (String.join (s.node.map (· ++ "\n")) ++ "\n", s) := rfl

theorem go_inspect (r : String) :
    go (succeedsOn (docker ["image", "inspect", r])) s = (decide (normalize r ∈ s.host), s) := by
  have hdocker : s.docker (docker ["image", "inspect", r]).args =
      if normalize r ∈ s.host then some ("", s) else none := rfl
  by_cases h : normalize r ∈ s.host
  · rw [if_pos h] at hdocker
    simp [succeedsOn, go, request, issue, served, map_eq_pure_bind, Images.serve, hdocker, h]
  · rw [if_neg h] at hdocker
    simp [succeedsOn, go, request, issue, served, map_eq_pure_bind, Images.serve, hdocker, h]

theorem go_runCapture {command : Command} {stdout : String} {s' : Images}
    (h : s.docker command.args = some (stdout, s')) : go (runCapture command).run s = (.ok (), s') := by
  change ((captured (Images.serve (.output command) s).1).map fun _ => (),
    (Images.serve (.output command) s).2) = _
  rw [Images.serve, h]
  rfl

theorem go_runCapture_failed {command : Command} (h : s.docker command.args = none) :
    ∃ e, go (runCapture command).run s = (.error e, s) := by
  refine ⟨String.ofList (trim "failed".toList), ?_⟩
  change ((captured (Images.serve (.output command) s).1).map fun _ => (),
    (Images.serve (.output command) s).2) = _
  rw [Images.serve, h]
  rfl

theorem go_save {r : String} (h : normalize r ∈ s.host) (tar : String) :
    go (runCapture (docker ["save", "-o", tar, r])).run s =
      (.ok (), { s with archive := some (normalize r) }) :=
  go_runCapture (if_pos h)

theorem go_cp (tar dest : String) :
    go (runCapture (docker ["cp", tar, dest])).run s = (.ok (), { s with copied := s.archive }) :=
  go_runCapture rfl

theorem go_import (node script : String) :
    go (runCapture (docker ["exec", node, "sh", "-c", script])).run s =
      (.ok (), { s with node := s.copied.toList ++ s.node }) :=
  go_runCapture rfl

theorem go_pull (r : String) :
    go (ctrQuiet ["pull", r]).run s = (.ok (), { s with node := r :: s.node }) :=
  go_runCapture rfl

theorem go_tag {source target : String} (h : source ∈ s.node ∧ target ∉ s.node) :
    go (runCapture (ctrImages ["tag", source, target])).run s =
      (.ok (), { s with node := target :: s.node }) :=
  go_runCapture (if_pos h)

theorem go_tag_failed {source target : String} (h : ¬(source ∈ s.node ∧ target ∉ s.node)) :
    ∃ e, go (runCapture (ctrImages ["tag", source, target])).run s = (.error e, s) :=
  go_runCapture_failed (if_neg h)

/-! ## Tags -/

/-- The node has lost nothing and gained only what `P` holds of. -/
structure Gains (P : String → Prop) (s s' : Images) : Prop where
  node_mono : ∀ x ∈ s.node, x ∈ s'.node
  node_of : ∀ x ∈ s'.node, x ∈ s.node ∨ P x
  host : s'.host = s.host
  printed : ∀ line ∈ s.printed, line ∈ s'.printed

namespace Gains

variable {P Q : String → Prop} {s' s'' : Images}

theorem refl (P : String → Prop) (s : Images) : Gains P s s :=
  ⟨fun _ h => h, fun _ h => .inl h, rfl, fun _ h => h⟩

theorem trans (h : Gains P s s') (h' : Gains P s' s'') : Gains P s s'' where
  node_mono x hx := h'.node_mono x (h.node_mono x hx)
  node_of x hx := by
    rcases h'.node_of x hx with hx | hx
    · exact h.node_of x hx
    · exact .inr hx
  host := h'.host.trans h.host
  printed line hline := h'.printed line (h.printed line hline)

theorem mono (h : Gains P s s') (hPQ : ∀ x, P x → Q x) : Gains Q s s' where
  node_mono := h.node_mono
  node_of x hx := (h.node_of x hx).imp_right (hPQ x)
  host := h.host
  printed := h.printed

/-- Refs that `P` does not hold of are in the node as they were. -/
theorem mem_iff (h : Gains P s s') {x : String} (hx : ¬ P x) : x ∈ s'.node ↔ x ∈ s.node := by
  constructor
  · intro hmem
    exact (h.node_of x hmem).resolve_right hx
  · exact h.node_mono x

theorem cons {r : String} (hr : P r) : Gains P s { s with node := r :: s.node } where
  node_mono x hx := List.mem_cons_of_mem _ hx
  node_of x hx := by
    rcases List.mem_cons.1 hx with rfl | hx
    · exact .inr hr
    · exact .inl hx
  host := rfl
  printed _ h := h

end Gains

section Tags

variable {importedRef source : String} {required : List String}

/-- Behind the tag of a ref, the others can be tagged when all of them could. -/
theorem taggable_cons {P : String → Prop} {r : String} {node : List String} (hnot : r ∉ required)
    (htag : source ∈ node ∧ r ∉ node) :
    (∀ x ∈ required, P x → source ∈ r :: node ∧ x ∉ r :: node) ↔
      ∀ x ∈ r :: required, P x → source ∈ node ∧ x ∉ node := by
  rw [List.forall_mem_cons]
  constructor
  · intro h
    refine ⟨fun _ => htag, fun x hx hP => ⟨htag.1, fun hmem => ?_⟩⟩
    exact (h x hx hP).2 (List.mem_cons_of_mem _ hmem)
  · rintro ⟨-, h⟩ x hx hP
    refine ⟨List.mem_cons_of_mem _ htag.1, ?_⟩
    rw [List.mem_cons, not_or]
    exact ⟨fun hxr => hnot (hxr ▸ hx), (h x hx hP).2⟩

theorem tagAll_skip (s : Images) : go (tagAll importedRef (importedRef :: required)).run s =
    go (tagAll importedRef required).run s := by
  apply go_bind_ok
  rw [if_neg (not_not.2 rfl)]
  rfl

theorem tagAll_tag {r : String} (hne : r ≠ importedRef) (h : importedRef ∈ s.node ∧ r ∉ s.node) :
    go (tagAll importedRef (r :: required)).run s =
      go (tagAll importedRef required).run { s with node := r :: s.node } := by
  apply go_bind_ok
  rw [if_pos hne]
  exact go_tag h

theorem tagAll_failed (required : List String) {r : String} (hne : r ≠ importedRef)
    (h : ¬(importedRef ∈ s.node ∧ r ∉ s.node)) :
    ∃ e, go (tagAll importedRef (r :: required)).run s = (.error e, s) := by
  obtain ⟨e, he⟩ := go_tag_failed h
  refine ⟨e, go_bind_error ?_⟩
  rw [if_pos hne]
  exact he

/-- The tags of a transfer: what they leave, and when they succeed. -/
theorem tagAll_spec (hnodup : required.Nodup) : ∀ s : Images,
    Gains (fun x => x ∈ required ∧ x ≠ importedRef) s (go (tagAll importedRef required).run s).2 ∧
    (go (tagAll importedRef required).run s).2.printed = s.printed ∧
    ((go (tagAll importedRef required).run s).1 = .ok () ↔
      ∀ r ∈ required, r ≠ importedRef → importedRef ∈ s.node ∧ r ∉ s.node) ∧
    ((go (tagAll importedRef required).run s).1 = .ok () →
      ∀ r ∈ required, r ≠ importedRef → r ∈ (go (tagAll importedRef required).run s).2.node) := by
  induction required with
  | nil =>
    intro s
    refine ⟨Gains.refl _ s, rfl, ?_, fun _ => List.forall_mem_nil _⟩
    exact iff_of_true rfl (List.forall_mem_nil _)
  | cons r required ih =>
    intro s
    obtain ⟨hnot, hnodup⟩ := List.nodup_cons.1 hnodup
    by_cases heq : r = importedRef
    · subst heq
      rw [tagAll_skip]
      obtain ⟨hgains, hprinted, hok, htagged⟩ := ih hnodup s
      refine ⟨hgains.mono fun x hx => ⟨List.mem_cons_of_mem _ hx.1, hx.2⟩, hprinted, ?_, ?_⟩
      · rw [hok]
        simp
      · intro h x hx hne
        exact htagged h x ((List.mem_cons.1 hx).resolve_left hne) hne
    by_cases htag : importedRef ∈ s.node ∧ r ∉ s.node
    · rw [tagAll_tag heq htag]
      obtain ⟨hgains, hprinted, hok, htagged⟩ := ih hnodup { s with node := r :: s.node }
      refine ⟨?_, hprinted, ?_, ?_⟩
      · apply Gains.trans (Gains.cons ⟨List.mem_cons_self, heq⟩)
        exact hgains.mono fun x hx => ⟨List.mem_cons_of_mem _ hx.1, hx.2⟩
      · rw [hok]
        exact taggable_cons hnot htag
      · intro h x hx hne
        rcases List.mem_cons.1 hx with rfl | hx
        · exact hgains.node_mono _ List.mem_cons_self
        · exact htagged h x hx hne
    · obtain ⟨e, he⟩ := tagAll_failed required heq htag
      rw [he]
      refine ⟨Gains.refl _ s, rfl, ?_, fun h => by cases h⟩
      constructor
      · intro h
        cases h
      · intro h
        exact absurd (h r List.mem_cons_self heq) htag

theorem pullTags_skip {listed r : String} (h : isListed listed r = true) (s : Images) :
    go (pullTags source (r :: required) listed).run s =
      go (pullTags source required listed).run s := by
  rw [pullTags, if_pos h]

theorem pullTags_tag {listed r : String} (h : isListed listed r = false)
    (htag : source ∈ s.node ∧ r ∉ s.node) :
    go (pullTags source (r :: required) listed).run s =
      go (pullTags source required (listed ++ (r ++ "\n"))).run { s with node := r :: s.node } := by
  rw [pullTags, if_neg (Bool.eq_false_iff.1 h)]
  exact go_bind_ok (go_tag htag)

theorem pullTags_failed (required : List String) {listed r : String} (h : isListed listed r = false)
    (htag : ¬(source ∈ s.node ∧ r ∉ s.node)) :
    ∃ e, go (pullTags source (r :: required) listed).run s = (.error e, s) := by
  obtain ⟨e, he⟩ := go_tag_failed htag
  refine ⟨e, ?_⟩
  rw [pullTags, if_neg (Bool.eq_false_iff.1 h)]
  exact go_bind_error he

/-- No ref of the list ends in another one, and each is one line. -/
structure Apart (refs : List String) : Prop where
  pairwise : refs.Pairwise fun r t => ¬ r.toList <:+ t.toList ∧ ¬ t.toList <:+ r.toList
  line : ∀ r ∈ refs, '\n' ∉ r.toList

theorem Apart.tail {r : String} {refs : List String} (h : Apart (r :: refs)) : Apart refs :=
  ⟨(List.pairwise_cons.1 h.pairwise).2, fun t ht => h.line t (List.mem_cons_of_mem _ ht)⟩

theorem Apart.nodup {refs : List String} (h : Apart refs) : refs.Nodup := by
  apply h.pairwise.imp
  rintro r t ⟨hnot, -⟩ rfl
  exact hnot (List.suffix_refl _)

/-- Behind the line of a ref, the others are listed as they were. -/
theorem Apart.isListed_push {listed r t : String} {refs : List String} (h : Apart (r :: refs))
    (hends : listed.toList.getLast? = some '\n') (ht : t ∈ refs) :
    isListed (listed ++ (r ++ "\n")) t = isListed listed t := by
  have hnot := ((List.pairwise_cons.1 h.pairwise).1 t ht).2
  rw [Bool.eq_iff_iff, Local.isListed_push (h.line t (List.mem_cons_of_mem _ ht))
    (h.line r List.mem_cons_self) hends, or_iff_left hnot]

/-- The tags of a pull: what they leave, and when they succeed. -/
theorem pullTags_spec (hapart : Apart required) : ∀ (s : Images) {listed : String},
    listed.toList.getLast? = some '\n' →
    Gains (fun x => x ∈ required ∧ isListed listed x = false) s
      (go (pullTags source required listed).run s).2 ∧
    (go (pullTags source required listed).run s).2.printed = s.printed ∧
    ((∃ listed', (go (pullTags source required listed).run s).1 = .ok listed') ↔
      ∀ r ∈ required, isListed listed r = false → source ∈ s.node ∧ r ∉ s.node) ∧
    ∀ listed', (go (pullTags source required listed).run s).1 = .ok listed' →
      (∃ refs, (∀ t ∈ refs, t ∈ required) ∧ listed' = pushLines listed refs) ∧
      ∀ r ∈ required, isListed listed r = false →
        r ∈ (go (pullTags source required listed).run s).2.node := by
  induction required with
  | nil =>
    intro s listed _
    refine ⟨Gains.refl _ s, rfl, iff_of_true ⟨listed, rfl⟩ (List.forall_mem_nil _), ?_⟩
    rintro listed' ⟨⟩
    exact ⟨⟨[], List.forall_mem_nil _, rfl⟩, List.forall_mem_nil _⟩
  | cons r required ih =>
    intro s listed hends
    cases hlisted : isListed listed r with
    | true =>
      rw [pullTags_skip hlisted]
      obtain ⟨hgains, hprinted, hok, hdone⟩ := ih hapart.tail s hends
      refine ⟨hgains.mono fun x hx => ⟨List.mem_cons_of_mem _ hx.1, hx.2⟩, hprinted, ?_, ?_⟩
      · rw [hok, List.forall_mem_cons, hlisted]
        simp
      · intro listed' h
        obtain ⟨⟨refs, hrefs, heq⟩, hnode⟩ := hdone listed' h
        refine ⟨⟨refs, fun t ht => List.mem_cons_of_mem _ (hrefs t ht), heq⟩, ?_⟩
        rw [List.forall_mem_cons]
        refine ⟨fun hfalse => ?_, hnode⟩
        rw [hlisted] at hfalse
        cases hfalse
    | false =>
      by_cases htag : source ∈ s.node ∧ r ∉ s.node
      · rw [pullTags_tag hlisted htag]
        obtain ⟨hgains, hprinted, hok, hdone⟩ :=
          ih hapart.tail { s with node := r :: s.node } (ends_push listed r)
        refine ⟨?_, hprinted, ?_, ?_⟩
        · apply Gains.trans (Gains.cons ⟨List.mem_cons_self, hlisted⟩)
          apply hgains.mono
          rintro x ⟨hx, hx'⟩
          rw [hapart.isListed_push hends hx] at hx'
          exact ⟨List.mem_cons_of_mem _ hx, hx'⟩
        · rw [hok, ← taggable_cons (List.nodup_cons.1 hapart.nodup).1 htag]
          exact forall₂_congr fun x hx => by rw [hapart.isListed_push hends hx]
        · intro listed' h
          obtain ⟨⟨refs, hrefs, heq⟩, hnode⟩ := hdone listed' h
          refine ⟨⟨r :: refs, ?_, heq⟩, ?_⟩
          · exact List.forall_mem_cons.2
              ⟨List.mem_cons_self, fun t ht => List.mem_cons_of_mem _ (hrefs t ht)⟩
          · rw [List.forall_mem_cons]
            refine ⟨fun _ => hgains.node_mono r List.mem_cons_self, fun x hx hx' => ?_⟩
            rw [← hapart.isListed_push hends hx] at hx'
            exact hnode x hx hx'
      · obtain ⟨e, he⟩ := pullTags_failed required hlisted htag
        rw [he]
        refine ⟨Gains.refl _ s, rfl, ?_, fun _ h => by cases h⟩
        constructor
        · rintro ⟨_, ⟨⟩⟩
        · intro h
          exact absurd (h r List.mem_cons_self hlisted) htag

/-- Behind a pull, the tags leave every ref in the node when it lacks those that are not listed,
and them only. -/
theorem pullTags_resolves (hapart : Apart required) {listed : String}
    (hends : listed.toList.getLast? = some '\n') (hsource : source ∈ s.node) :
    ((∃ listed', (go (pullTags source required listed).run s).1 = .ok listed') ∧
      ∀ r ∈ required, r ∈ (go (pullTags source required listed).run s).2.node) ↔
      ∀ r ∈ required, r ∈ s.node ↔ isListed listed r = true := by
  obtain ⟨hgains, -, hok, hdone⟩ := @pullTags_spec source required hapart s listed hends
  constructor
  · rintro ⟨hrun, hpresent⟩ r hr
    constructor
    · intro hin
      cases hlisted : isListed listed r with
      | true => rfl
      | false => exact absurd hin (hok.1 hrun r hr hlisted).2
    · intro hlisted
      refine (hgains.node_of r (hpresent r hr)).resolve_right fun h => ?_
      rw [hlisted] at h
      cases h.2
  · intro h
    have hrun := hok.2 fun r hr hunlisted => ⟨hsource, fun hin => by
      rw [(h r hr).1 hin] at hunlisted
      cases hunlisted⟩
    obtain ⟨listed', hlisted'⟩ := hrun
    refine ⟨⟨listed', hlisted'⟩, fun r hr => ?_⟩
    cases hlisted : isListed listed r with
    | true => exact hgains.node_mono r ((h r hr).2 hlisted)
    | false => exact (hdone listed' hlisted').2 r hr hlisted

end Tags

/-! ## From the host -/

/-- The state behind an import. -/
def Images.imported (s : Images) (r : String) : Images :=
  { s with archive := some r, copied := some r, node := r :: s.node }

/-- The state behind a line. -/
def Images.said (s : Images) (line : Line) : Images := { s with printed := s.printed ++ [line] }

/-- No transfer has failed so far. -/
def Images.Quiet (s : Images) : Prop := ∀ e, Line.hostTransferFailed e ∉ s.printed

theorem go_say (line : Line) : go (say line) s = ((), s.said line) := rfl

theorem Gains.said (P : String → Prop) (s : Images) (line : Line) : Gains P s (s.said line) where
  node_mono _ h := h
  node_of _ h := .inl h
  host := rfl
  printed _ h := List.mem_append_left _ h

theorem Gains.imported {P : String → Prop} {r : String} (hr : P r) : Gains P s (s.imported r) where
  node_mono _ h := List.mem_cons_of_mem _ h
  node_of x hx := by
    rcases List.mem_cons.1 hx with rfl | hx
    · exact .inr hr
    · exact .inl hx
  host := rfl
  printed _ h := h

theorem Images.Quiet.said {line : Line} (h : s.Quiet) (hline : ∀ e, line ≠ .hostTransferFailed e) :
    (s.said line).Quiet := by
  intro e hmem
  rcases List.mem_append.1 hmem with hmem | hmem
  · exact h e hmem
  · exact hline e (List.mem_singleton.1 hmem).symm

theorem go_findHost (candidates : List String) :
    go (findHost candidates) s = (candidates.find? fun r => decide (normalize r ∈ s.host), s) := by
  induction candidates with
  | nil => rfl
  | cons r candidates ih =>
    rw [findHost, go_bind, go_inspect, List.find?_cons]
    cases decide (normalize r ∈ s.host) with
    | true => rfl
    | false => exact ih

section

variable {tempDir hostRef label : String} {required : List String}

/-- Behind the import, a transfer is its tags. -/
theorem go_transfer (h : normalize hostRef ∈ s.host) :
    go (transfer tempDir hostRef required).run s =
      go (tagAll (fullyQualified hostRef) required).run (s.imported (normalize hostRef)) := by
  unfold transfer
  dsimp only
  rw [go_bind_ok (go_save h _), go_bind_ok (go_cp _ _), go_bind_ok (go_import _ _)]
  change go _ (s.imported (normalize hostRef)) = _
  cases htags : go (tagAll (fullyQualified hostRef) required).run
      (s.imported (normalize hostRef)) with
  | mk outcome s' =>
    cases outcome with
    | ok _ =>
      rw [go_bind_ok htags]
      rfl
    | error e => rw [go_bind_error htags]

/-- The tags of a transfer of the image can be made. -/
def Transferable (node : List String) (hostRef : String) (required : List String) : Prop :=
  ∀ r ∈ required, r ≠ fullyQualified hostRef →
    fullyQualified hostRef ∈ normalize hostRef :: node ∧ r ∉ normalize hostRef :: node

/-- What the transfer of an image that docker has leaves: the tags, or a line about it. -/
theorem go_fromHost (h : normalize hostRef ∈ s.host) (hnodup : required.Nodup)
    (hbase : ∀ r ∈ required, base r = base hostRef) :
    ∃ s', Gains (fun x => base x = base hostRef) s s' ∧
      (Transferable s.node hostRef required ∧ (s.Quiet → s'.Quiet) ∧
        go (fromHost tempDir label required (some hostRef)) s = (true, s') ∧
        (∀ x, x ∈ s'.node ↔
          x ∈ normalize hostRef :: s.node ∨ x ∈ required ∧ x ≠ fullyQualified hostRef) ∨
      ¬Transferable s.node hostRef required ∧ ¬s'.Quiet ∧
        go (fromHost tempDir label required (some hostRef)) s = (false, s')) := by
  have htransfer : go (transfer tempDir hostRef required).run (s.said (.fromLocalDocker label hostRef)) =
      go (tagAll (fullyQualified hostRef) required).run
        ((s.said (.fromLocalDocker label hostRef)).imported (normalize hostRef)) := go_transfer h
  obtain ⟨hgains, hprinted, hok, htagged⟩ := @tagAll_spec (fullyQualified hostRef) required hnodup
    ((s.said (.fromLocalDocker label hostRef)).imported (normalize hostRef))
  rw [← htransfer] at hgains hprinted hok htagged
  have hstart : Gains (fun x => base x = base hostRef) s
      ((s.said (.fromLocalDocker label hostRef)).imported (normalize hostRef)) :=
    (Gains.said _ s _).trans (Gains.imported (base_normalize hostRef))
  have hall := hstart.trans (hgains.mono fun x hx => hbase x hx.1)
  cases hrun : go (transfer tempDir hostRef required).run
      (s.said (.fromLocalDocker label hostRef)) with
  | mk outcome s' =>
    rw [hrun] at hgains hprinted hok htagged hall
    cases outcome with
    | ok _ =>
      refine ⟨s', hall, .inl ⟨hok.1 rfl, ?_, ?_, fun x => ?_⟩⟩
      · intro hquiet e
        rw [hprinted]
        exact (hquiet.said fun e' => Line.noConfusion) e
      · rw [fromHost, go_bind, go_say, go_bind, hrun]
        rfl
      · constructor
        · exact hgains.node_of x
        · rintro (hx | ⟨hx, hne⟩)
          · exact hgains.node_mono x hx
          · exact htagged rfl x hx hne
    | error e =>
      refine ⟨s'.said (.hostTransferFailed e), hall.trans (Gains.said _ _ _), .inr ⟨?_, ?_, ?_⟩⟩
      · intro htransferable
        cases hok.2 htransferable
      · intro hquiet
        exact hquiet e (List.mem_append_right _ (List.mem_singleton.2 rfl))
      · rw [fromHost, go_bind, go_say, go_bind, hrun]
        rfl

end

/-! ## One entry -/

section

variable (registry tempDir : String) (entry : String × List String)

/-- The entry can be resolved: it is in the node if it seems to be, the image of the host can be
tagged as what is required, or what is not listed is missing in the node behind the pull. -/
structure Resolvable (s : Images) (listed : String) : Prop where
  inNode : (∀ r ∈ requiredRefs registry entry.1 entry.2, isListed listed r = true) →
    ∀ r ∈ requiredRefs registry entry.1 entry.2, r ∈ s.node
  onHost : ¬(∀ r ∈ requiredRefs registry entry.1 entry.2, isListed listed r = true) →
    ∀ hostRef, ((hostCandidates registry entry.1).find? fun r => decide (normalize r ∈ s.host)) =
        some hostRef →
      fullyQualified hostRef ∈ normalize hostRef :: s.node ∧
      ∀ r ∈ requiredRefs registry entry.1 entry.2, r ≠ fullyQualified hostRef →
        r ∉ normalize hostRef :: s.node
  pulled : ¬(∀ r ∈ requiredRefs registry entry.1 entry.2, isListed listed r = true) →
    ((hostCandidates registry entry.1).find? fun r => decide (normalize r ∈ s.host)) = none →
      ∀ r ∈ requiredRefs registry entry.1 entry.2,
        r ∈ pullSource registry entry.1 :: s.node ↔ isListed listed r = true

/-- The refs of an entry have its base, and do not end in one another. -/
structure Sane : Prop where
  base : ∀ r ∈ requiredRefs registry entry.1 entry.2, base r = Local.base entry.1
  slash : ∀ r ∈ requiredRefs registry entry.1 entry.2, '/' ∈ r.toList
  apart : Apart (requiredRefs registry entry.1 entry.2)
  nonempty : requiredRefs registry entry.1 entry.2 ≠ []

variable {registry tempDir entry} {name label listed : String} {required failed : List String}

/-- What a pull leaves, and when it resolves the entry. -/
theorem go_pullImage (hapart : Apart required) (hends : listed.toList.getLast? = some '\n')
    (hbase : ∀ r ∈ required, base r = base name) (s : Images) :
    ∃ outcome s', go (pullImage registry name label required listed failed).run s = (outcome, s') ∧
      Gains (fun x => base x = base name) s s' ∧ (s.Quiet → s'.Quiet) ∧
      (∀ next, outcome = .ok next → next.2 = failed ∧
        ∃ refs, (∀ t ∈ refs, t ∈ required) ∧ next.1 = pushLines listed refs) ∧
      ((∃ next, outcome = .ok next) ∧ (∀ r ∈ required, r ∈ s'.node) ↔
        ∀ r ∈ required, r ∈ pullSource registry name :: s.node ↔ isListed listed r = true) := by
  have hsource : base (pullSource registry name) = base name := by
    unfold pullSource
    split
    · exact base_append "docker.io" name
    · exact base_fullImage registry name
  obtain ⟨pulled, hpulled⟩ : ∃ pulled : Images, pulled =
      { s.said (.pulling label (pullSource registry name)) with
        node := pullSource registry name :: s.node } := ⟨_, rfl⟩
  have hnode : pulled.node = pullSource registry name :: s.node := by rw [hpulled]
  have hstart : Gains (fun x => base x = base name) s pulled := by
    rw [hpulled]
    exact (Gains.said _ s _).trans (Gains.cons hsource)
  have hquiet : s.Quiet → pulled.Quiet := by
    intro h
    rw [hpulled]
    exact h.said fun e => nofun
  have hrun : go (pullImage registry name label required listed failed).run s =
      go (pullTags (pullSource registry name) required listed >>= fun listed =>
        (pure (listed, failed) : Ensure (String × List String))).run pulled := by
    unfold pullImage
    dsimp only
    rw [go_lift_bind, go_say, hpulled]
    change go ((liftM (ctrQuiet ["pull", pullSource registry name]).run : Ensure _) >>= _).run _ = _
    rw [go_lift_bind, go_pull]
    rfl
  obtain ⟨hgains, hprinted, -, hdone⟩ :=
    @pullTags_spec (pullSource registry name) required hapart pulled listed hends
  have hresolves := @pullTags_resolves pulled (pullSource registry name) required hapart listed hends
    (by rw [hnode]; exact List.mem_cons_self)
  rw [hrun]
  cases htags : go (pullTags (pullSource registry name) required listed).run pulled with
  | mk outcome s' =>
    rw [htags] at hgains hprinted hdone hresolves
    rw [hnode] at hresolves
    have hall := hstart.trans (hgains.mono fun x hx => hbase x hx.1)
    have hquiet' : s.Quiet → s'.Quiet := by
      intro h e
      rw [hprinted]
      exact hquiet h e
    cases outcome with
    | error e =>
      refine ⟨.error e, s', go_bind_error htags, hall, hquiet', fun _ h => ?_, ?_⟩
      · cases h
      rw [← hresolves]
      constructor
      · rintro ⟨⟨_, ⟨⟩⟩, -⟩
      · rintro ⟨⟨_, ⟨⟩⟩, -⟩
    | ok listed' =>
      refine ⟨.ok (listed', failed), s', go_bind_ok htags, hall, hquiet', ?_, ?_⟩
      · rintro _ ⟨⟩
        exact ⟨rfl, (hdone listed' rfl).1⟩
      rw [← hresolves]
      constructor
      · rintro ⟨-, hpresent⟩
        exact ⟨⟨_, rfl⟩, hpresent⟩
      · rintro ⟨-, hpresent⟩
        exact ⟨⟨_, rfl⟩, hpresent⟩

theorem base_hostRef {hostRef : String} {p : String → Bool}
    (h : (hostCandidates registry name).find? p = some hostRef) : base hostRef = base name := by
  have hmem := List.mem_of_find?_eq_some h
  unfold hostCandidates at hmem
  split at hmem
  · rw [List.mem_singleton.1 hmem]
  · rcases List.mem_cons.1 hmem with rfl | hmem
    · rfl
    · rw [List.mem_singleton.1 hmem]
      exact base_fullImage registry name

/-- The node and the lines that an entry leaves, and whether they resolve it. -/
structure Leaves (registry : String) (entry : String × List String) (s : Images) (listed : String)
    (failed : List String) (outcome : Except String (String × List String)) (s' : Images) :
    Prop where
  gains : Gains (fun x => base x = base entry.1) s s'
  next : ∀ next, outcome = .ok next → next.2 = failed ∧
    ∃ refs, (∀ t ∈ refs, t ∈ requiredRefs registry entry.1 entry.2) ∧ next.1 = pushLines listed refs
  resolves : s.Quiet → (((∃ next, outcome = .ok next) ∧ s'.Quiet ∧
      ∀ r ∈ requiredRefs registry entry.1 entry.2, r ∈ s'.node) ↔
    Resolvable registry entry s listed)

theorem resolvable_of_listed
    (hall : ∀ r ∈ requiredRefs registry entry.1 entry.2, isListed listed r = true) :
    Resolvable registry entry s listed ↔
      ∀ r ∈ requiredRefs registry entry.1 entry.2, r ∈ s.node :=
  ⟨fun h => h.inNode hall, fun h => ⟨fun _ => h, fun hnot => absurd hall hnot,
    fun hnot => absurd hall hnot⟩⟩

theorem resolvable_of_host (hostRef : String)
    (hall : ¬ ∀ r ∈ requiredRefs registry entry.1 entry.2, isListed listed r = true)
    (hfind : ((hostCandidates registry entry.1).find? fun r => decide (normalize r ∈ s.host)) =
      some hostRef) :
    Resolvable registry entry s listed ↔
      fullyQualified hostRef ∈ normalize hostRef :: s.node ∧
      ∀ r ∈ requiredRefs registry entry.1 entry.2, r ≠ fullyQualified hostRef →
        r ∉ normalize hostRef :: s.node := by
  constructor
  · intro h
    exact h.onHost hall hostRef hfind
  · intro h
    refine ⟨fun hall' => absurd hall' hall, ?_, ?_⟩
    · rintro - _ hfind'
      cases hfind.symm.trans hfind'
      exact h
    · rintro - hnone
      cases hfind.symm.trans hnone

theorem resolvable_of_pull
    (hall : ¬ ∀ r ∈ requiredRefs registry entry.1 entry.2, isListed listed r = true)
    (hfind : ((hostCandidates registry entry.1).find? fun r => decide (normalize r ∈ s.host)) =
      none) :
    Resolvable registry entry s listed ↔ ∀ r ∈ requiredRefs registry entry.1 entry.2,
      r ∈ pullSource registry entry.1 :: s.node ↔ isListed listed r = true := by
  constructor
  · intro h
    exact h.pulled hall hfind
  · intro h
    refine ⟨fun hall' => absurd hall' hall, ?_, fun _ _ => h⟩
    rintro - _ hsome
    cases hfind.symm.trans hsome

theorem all_isListed {refs : List String} :
    refs.all (isListed listed) = true ↔ ∀ r ∈ refs, isListed listed r = true := List.all_eq_true

/-- An entry that seems to be in the node. -/
theorem leaves_of_listed (label : String)
    (hall : ∀ r ∈ requiredRefs registry entry.1 entry.2, isListed listed r = true) :
    Leaves registry entry s listed failed (.ok (listed, failed)) (s.said (.alreadyInNode label)) := by
  refine ⟨Gains.said _ s _, ?_, ?_⟩
  · rintro _ ⟨⟩
    exact ⟨rfl, [], List.forall_mem_nil _, rfl⟩
  · intro hquiet
    rw [resolvable_of_listed hall]
    constructor
    · rintro ⟨-, -, hpresent⟩
      exact hpresent
    · intro hpresent
      exact ⟨⟨_, rfl⟩, hquiet.said fun e => nofun, hpresent⟩

/-- An entry that docker on the host does not have. -/
theorem leaves_of_pull (label : String) (hsane : Sane registry entry)
    (hends : listed.toList.getLast? = some '\n')
    (hall : ¬ ∀ r ∈ requiredRefs registry entry.1 entry.2, isListed listed r = true)
    (hfind : ((hostCandidates registry entry.1).find? fun r => decide (normalize r ∈ s.host)) =
      none) :
    ∃ outcome s', go (pullImage registry entry.1 label (requiredRefs registry entry.1 entry.2) listed
        failed).run s = (outcome, s') ∧ Leaves registry entry s listed failed outcome s' := by
  obtain ⟨outcome, s', hpull, hgains, hquiet', hnext, hresolves⟩ :=
    @go_pullImage registry entry.1 label listed _ failed hsane.apart hends hsane.base s
  refine ⟨outcome, s', hpull, hgains, hnext, fun hquiet => ?_⟩
  rw [resolvable_of_pull hall hfind, ← hresolves]
  constructor
  · rintro ⟨hok, -, hpresent⟩
    exact ⟨hok, hpresent⟩
  · rintro ⟨hok, hpresent⟩
    exact ⟨hok, hquiet' hquiet, hpresent⟩

section

variable {hostRef : String} {s' : Images}

/-- An entry that came from docker on the host. -/
theorem leaves_of_transfer (hsane : Sane registry entry)
    (hall : ¬ ∀ r ∈ requiredRefs registry entry.1 entry.2, isListed listed r = true)
    (hfind : ((hostCandidates registry entry.1).find? fun r => decide (normalize r ∈ s.host)) =
      some hostRef)
    (hgains : Gains (fun x => base x = base entry.1) s s') (hquiet' : s.Quiet → s'.Quiet)
    (htransferable : Transferable s.node hostRef (requiredRefs registry entry.1 entry.2))
    (hmem : ∀ x, x ∈ s'.node ↔ x ∈ normalize hostRef :: s.node ∨
      x ∈ requiredRefs registry entry.1 entry.2 ∧ x ≠ fullyQualified hostRef) :
    Leaves registry entry s listed failed
      (.ok (pushLines listed (requiredRefs registry entry.1 entry.2), failed)) s' := by
  refine ⟨hgains, ?_, fun hquiet => ?_⟩
  · rintro _ ⟨⟩
    exact ⟨rfl, _, fun _ h => h, rfl⟩
  rw [resolvable_of_host hostRef hall hfind]
  constructor
  · rintro ⟨-, -, hpresent⟩
    refine ⟨?_, fun r hr hne => (htransferable r hr hne).2⟩
    obtain ⟨r, hr⟩ := List.exists_mem_of_ne_nil _ hsane.nonempty
    by_cases hne : r = fullyQualified hostRef
    · have hin := (hmem r).1 (hpresent r hr)
      rw [hne] at hin
      exact hin.resolve_right fun h => h.2 rfl
    · exact (htransferable r hr hne).1
  · rintro ⟨himported, -⟩
    refine ⟨⟨_, rfl⟩, hquiet' hquiet, fun r hr => (hmem r).2 ?_⟩
    by_cases hne : r = fullyQualified hostRef
    · exact .inl (hne ▸ himported)
    · exact .inr ⟨hr, hne⟩

/-- An entry whose transfer has failed, whatever the pull then does. -/
theorem leaves_of_loud {outcome : Except String (String × List String)} {s'' : Images}
    (hall : ¬ ∀ r ∈ requiredRefs registry entry.1 entry.2, isListed listed r = true)
    (hfind : ((hostCandidates registry entry.1).find? fun r => decide (normalize r ∈ s.host)) =
      some hostRef)
    (hgains : Gains (fun x => base x = base entry.1) s s') (hloud : ¬ s'.Quiet)
    (hnot : ¬ Transferable s.node hostRef (requiredRefs registry entry.1 entry.2))
    (hgains' : Gains (fun x => base x = base entry.1) s' s'')
    (hnext : ∀ next, outcome = .ok next → next.2 = failed ∧ ∃ refs,
      (∀ t ∈ refs, t ∈ requiredRefs registry entry.1 entry.2) ∧ next.1 = pushLines listed refs) :
    Leaves registry entry s listed failed outcome s'' := by
  refine ⟨hgains.trans hgains', hnext, fun _ => ?_⟩
  rw [resolvable_of_host hostRef hall hfind]
  constructor
  · rintro ⟨-, hquiet', -⟩
    exact absurd (fun e he => hquiet' e (hgains'.printed _ he)) hloud
  · rintro ⟨himported, habsent⟩
    exact absurd (fun r hr hne => ⟨himported, habsent r hr hne⟩) hnot

end

/-- One entry. -/
theorem ensureImage_leaves (hsane : Sane registry entry)
    (hends : listed.toList.getLast? = some '\n') :
    ∃ outcome s', go (ensureImage registry tempDir entry listed failed).run s = (outcome, s') ∧
      Leaves registry entry s listed failed outcome s' := by
  generalize hlabel : ", ".intercalate (requiredRefs registry entry.1 entry.2) = label
  by_cases hall : ∀ r ∈ requiredRefs registry entry.1 entry.2, isListed listed r = true
  · refine ⟨_, _, ?_, leaves_of_listed label hall⟩
    unfold ensureImage
    dsimp only
    rw [hlabel, if_pos (all_isListed.2 hall)]
    rfl
  generalize hfind : ((hostCandidates registry entry.1).find? fun r => decide (normalize r ∈ s.host)) =
    found
  have hrun : go (ensureImage registry tempDir entry listed failed).run s =
      go ((liftM (fromHost tempDir label (requiredRefs registry entry.1 entry.2) found) :
          Ensure Bool) >>= fun done =>
        if done then (pure (pushLines listed (requiredRefs registry entry.1 entry.2), failed) :
          Ensure (String × List String))
        else pullImage registry entry.1 label (requiredRefs registry entry.1 entry.2) listed
          failed).run s := by
    unfold ensureImage
    dsimp only
    rw [hlabel, if_neg (mt all_isListed.1 hall), go_lift_bind, go_findHost, hfind]
  rw [go_lift_bind] at hrun
  cases found with
  | none =>
    obtain ⟨outcome, s', hpull, hleaves⟩ :=
      @leaves_of_pull s registry entry listed failed label hsane hends hall hfind
    exact ⟨outcome, s', hrun.trans hpull, hleaves⟩
  | some hostRef =>
    have hhost : normalize hostRef ∈ s.host := by simpa using List.find?_some hfind
    have hname : base hostRef = base entry.1 := base_hostRef hfind
    obtain ⟨s', hgains, hcases⟩ := @go_fromHost s tempDir hostRef label _ hhost hsane.apart.nodup
      fun r hr => (hsane.base r hr).trans hname.symm
    rw [hname] at hgains
    rcases hcases with ⟨htransferable, hquiet, hhostRun, hmem⟩ | ⟨hnot, hloud, hhostRun⟩
    · rw [hhostRun] at hrun
      exact ⟨_, s', hrun, leaves_of_transfer hsane hall hfind hgains hquiet htransferable hmem⟩
    · rw [hhostRun] at hrun
      obtain ⟨outcome, s'', hpull, hgains', -, hnext, -⟩ :=
        @go_pullImage registry entry.1 label listed _ failed hsane.apart hends hsane.base s'
      exact ⟨outcome, s'', hrun.trans hpull,
        leaves_of_loud hall hfind hgains hloud hnot hgains' hnext⟩

end

/-! ## All entries -/

section

variable {registry tempDir : String}

theorem Resolvable.congr {entry : String × List String} {s' : Images} {listed listed' : String}
    (hsane : Sane registry entry) (hhost : s'.host = s.host)
    (hnode : ∀ x, base x = base entry.1 → (x ∈ s'.node ↔ x ∈ s.node))
    (hlisted : ∀ r ∈ requiredRefs registry entry.1 entry.2, isListed listed' r = isListed listed r)
    (h : Resolvable registry entry s listed) : Resolvable registry entry s' listed' := by
  have hall : (∀ r ∈ requiredRefs registry entry.1 entry.2, isListed listed' r = true) ↔
      ∀ r ∈ requiredRefs registry entry.1 entry.2, isListed listed r = true :=
    forall₂_congr fun r hr => by rw [hlisted r hr]
  have hcons : ∀ {x y : String}, base x = base entry.1 → (x ∈ y :: s'.node ↔ x ∈ y :: s.node) := by
    intro x y hx
    rw [List.mem_cons, List.mem_cons, hnode x hx]
  constructor
  · intro hlisted' r hr
    rw [hnode r (hsane.base r hr)]
    exact h.inNode (hall.1 hlisted') r hr
  · intro hlisted' hostRef hfind
    rw [hhost] at hfind
    obtain ⟨himported, habsent⟩ := h.onHost (mt hall.2 hlisted') hostRef hfind
    rw [hcons ((base_fullyQualified hostRef).trans (base_hostRef hfind))]
    refine ⟨himported, fun r hr hne => ?_⟩
    rw [hcons (hsane.base r hr)]
    exact habsent r hr hne
  · intro hlisted' hfind r hr
    rw [hhost] at hfind
    rw [hcons (hsane.base r hr), hlisted r hr]
    exact h.pulled (mt hall.2 hlisted') hfind r hr

/-- An entry of another base leaves this one as it was. -/
theorem Leaves.resolvable_iff {entry other : String × List String} {listed : String}
    {failed : List String} {outcome : Except String (String × List String)} {s' : Images}
    {next : String × List String} (h : Leaves registry entry s listed failed outcome s')
    (hsane : Sane registry entry) (hother : Sane registry other) (hbase : base other.1 ≠ base entry.1)
    (hends : listed.toList.getLast? = some '\n') (hok : outcome = .ok next) :
    Resolvable registry other s' next.1 ↔ Resolvable registry other s listed := by
  obtain ⟨-, refs, hrefs, hnext⟩ := h.next next hok
  have hnode : ∀ x, base x = base other.1 → (x ∈ s'.node ↔ x ∈ s.node) := by
    intro x hx
    apply h.gains.mem_iff
    rw [hx]
    exact hbase
  have hlisted : ∀ r ∈ requiredRefs registry other.1 other.2,
      isListed next.1 r = isListed listed r := by
    intro r hr
    rw [hnext]
    apply isListed_pushLines (hother.slash r hr) (hother.apart.line r hr) _ hends
    intro t ht
    refine ⟨hsane.apart.line t (hrefs t ht), ?_⟩
    rw [hsane.base t (hrefs t ht), hother.base r hr]
    exact hbase.symm
  constructor
  · exact Resolvable.congr hother h.gains.host.symm (fun x hx => (hnode x hx).symm)
      fun r hr => (hlisted r hr).symm
  · exact Resolvable.congr hother h.gains.host hnode hlisted

/-- The loop: it resolves all entries exactly when each could be resolved at its start. -/
theorem ensureEntries_iff {entries : List (String × List String)} (failed : List String)
    (hsane : ∀ entry ∈ entries, Sane registry entry)
    (hbases : (entries.map fun entry => base entry.1).Nodup) :
    ∀ {s : Images} {listed : String}, listed.toList.getLast? = some '\n' →
    ∃ outcome s', go (ensureEntries registry tempDir entries listed failed).run s = (outcome, s') ∧
      Gains (fun x => ∃ entry ∈ entries, base x = base entry.1) s s' ∧
      (∀ failed', outcome = .ok failed' → failed' = failed) ∧
      (s.Quiet → ((outcome = .ok failed ∧ s'.Quiet ∧
          ∀ entry ∈ entries, ∀ r ∈ requiredRefs registry entry.1 entry.2, r ∈ s'.node) ↔
        ∀ entry ∈ entries, Resolvable registry entry s listed)) := by
  induction entries with
  | nil =>
    intro s listed _
    refine ⟨.ok failed, s, rfl, Gains.refl _ s, ?_, fun hquiet => ?_⟩
    · rintro _ ⟨⟩
      rfl
    · exact iff_of_true ⟨rfl, hquiet, List.forall_mem_nil _⟩ (List.forall_mem_nil _)
  | cons entry entries ih =>
    intro s listed hends
    obtain ⟨hentry, hentries⟩ := List.forall_mem_cons.1 hsane
    obtain ⟨hnot, hbases⟩ := List.nodup_cons.1 hbases
    have hother : ∀ other ∈ entries, base other.1 ≠ base entry.1 := by
      intro other hmem heq
      exact hnot (List.mem_map.2 ⟨other, hmem, heq⟩)
    obtain ⟨outcome, s₁, hrun, hleaves⟩ :=
      @ensureImage_leaves s registry tempDir entry listed failed hentry hends
    have hfirst : Gains (fun x => ∃ e ∈ entry :: entries, base x = base e.1) s s₁ :=
      hleaves.gains.mono fun x hx => ⟨entry, List.mem_cons_self, hx⟩
    cases outcome with
    | error e =>
      refine ⟨.error e, s₁, go_bind_error hrun, hfirst, fun _ h => ?_, fun hquiet => ?_⟩
      · cases h
      · constructor
        · rintro ⟨⟨⟩, -⟩
        · intro h
          obtain ⟨⟨_, ⟨⟩⟩, -⟩ := (hleaves.resolves hquiet).2 (h entry List.mem_cons_self)
    | ok next =>
      obtain ⟨hfailed, refs, -, hnext⟩ := hleaves.next next rfl
      have hends' : next.1.toList.getLast? = some '\n' := by
        rw [hnext]
        exact ends_pushLines hends
      obtain ⟨outcome', s₂, hrun', hgains, hfailed', hresolves⟩ := ih hentries hbases hends'
      refine ⟨outcome', s₂, ?_, ?_, hfailed', fun hquiet => ?_⟩
      · rw [ensureEntries, go_bind_ok hrun, hfailed]
        exact hrun'
      · apply hfirst.trans
        exact hgains.mono fun x ⟨e, he, hx⟩ => ⟨e, List.mem_cons_of_mem _ he, hx⟩
      have htransport : ∀ other ∈ entries,
          (Resolvable registry other s₁ next.1 ↔ Resolvable registry other s listed) :=
        fun other hmem => hleaves.resolvable_iff hentry (hentries other hmem) (hother other hmem)
          hends rfl
      constructor
      · rintro ⟨hok, hquiet₂, hpresent⟩
        have hquiet₁ : s₁.Quiet := fun e he => hquiet₂ e (hgains.printed _ he)
        obtain ⟨hhead, htail⟩ := List.forall_mem_cons.1 hpresent
        refine List.forall_mem_cons.2 ⟨(hleaves.resolves hquiet).1 ⟨⟨_, rfl⟩, hquiet₁, ?_⟩, ?_⟩
        · intro r hr
          rw [← hgains.mem_iff]
          · exact hhead r hr
          · rintro ⟨other, hmem, hr'⟩
            exact hother other hmem (hr'.symm.trans (hentry.base r hr))
        · intro other hmem
          exact (htransport other hmem).1 ((hresolves hquiet₁).1 ⟨hok, hquiet₂, htail⟩ other hmem)
      · intro h
        obtain ⟨hhead, htail⟩ := List.forall_mem_cons.1 h
        obtain ⟨-, hquiet₁, hpresent⟩ := (hleaves.resolves hquiet).2 hhead
        obtain ⟨hok, hquiet₂, hpresent'⟩ := (hresolves hquiet₁).2 fun other hmem =>
          (htransport other hmem).2 (htail other hmem)
        refine ⟨hok, hquiet₂, List.forall_mem_cons.2 ⟨fun r hr => ?_, hpresent'⟩⟩
        exact hgains.node_mono r (hpresent r hr)

/-- The command has succeeded, no transfer from the host has failed, and every required ref of
the table is in the node. -/
structure Resolved (registry : String) (entries : List (String × List String))
    (outcome : Except String Unit × Images) : Prop where
  ok : outcome.1 = .ok ()
  transfers : outcome.2.Quiet
  present : ∀ entry ∈ entries, ∀ r ∈ requiredRefs registry entry.1 entry.2, r ∈ outcome.2.node

/-- What `ctr` lists of the node. -/
def Images.listing (s : Images) : String := String.join (s.node.map (· ++ "\n")) ++ "\n"

theorem Images.ends_listing (s : Images) : s.listing.toList.getLast? = some '\n' := by
  rw [Images.listing, String.toList_append]
  exact List.getLast?_concat

/-- The search finds a ref exactly when a ref of the node ends in it. -/
theorem Images.isListed_listing {r : String} (hnode : ∀ t ∈ s.node, '\n' ∉ t.toList)
    (hslash : '/' ∈ r.toList) (hr : '\n' ∉ r.toList) :
    isListed s.listing r = true ↔ ∃ t ∈ s.node, r.toList <:+ t.toList := by
  have hlisting : s.listing.toList =
      (s.node.map String.toList).flatMap (· ++ ['\n']) ++ ([] ++ ['\n']) := by
    rw [Images.listing, String.toList_append, String.toList_join, List.flatMap_map,
      List.flatMap_map]
    simp only [String.toList_append]
    rfl
  have hempty : ¬ r.toList <:+ [] := fun h => by simp [List.suffix_nil.1 h] at hslash
  rw [isListed, decide_eq_true_iff, String.toList_append, hlisting]
  change (r.toList ++ ['\n']) <:+: _ ↔ _
  rw [infix_append_line hr List.not_mem_nil fun _ => ends_lines _, or_iff_left hempty,
    infix_lines hr]
  · simp
  · simpa using hnode

/-- What the node seems to have of an entry. -/
theorem Sane.listed_iff {entry : String × List String} (h : Sane registry entry)
    (hnode : ∀ t ∈ s.node, '\n' ∉ t.toList) :
    (∀ r ∈ requiredRefs registry entry.1 entry.2, isListed s.listing r = true) ↔
      ∀ r ∈ requiredRefs registry entry.1 entry.2, ∃ t ∈ s.node, r.toList <:+ t.toList :=
  forall₂_congr fun r hr => Images.isListed_listing hnode (h.slash r hr) (h.apart.line r hr)

/-- A table ends up in the node, without a failure, exactly when each entry can be resolved. -/
theorem ensureTable_resolved_iff {entries : List (String × List String)}
    (hsane : ∀ entry ∈ entries, Sane registry entry)
    (hbases : (entries.map fun entry => base entry.1).Nodup) (hquiet : s.Quiet) :
    Resolved registry entries (go (ensureTable registry tempDir entries).run s) ↔
      ∀ entry ∈ entries, Resolvable registry entry s s.listing := by
  obtain ⟨outcome, s', hrun, -, hfailed, hresolves⟩ := @ensureEntries_iff registry tempDir entries []
    hsane hbases s s.listing s.ends_listing
  have htable : go (ensureTable registry tempDir entries).run s =
      go (ensureEntries registry tempDir entries s.listing [] >>= fun failed =>
        if failed.isEmpty then (pure () : Ensure Unit)
        else throw ("images failed to resolve: [" ++
          ", ".intercalate (failed.map fun label => "\"" ++ label ++ "\"") ++ "]")).run s := by
    unfold ensureTable
    rw [go_lift_bind, go_list]
    rfl
  rw [← hresolves hquiet, htable]
  cases outcome with
  | error e =>
    rw [go_bind_error hrun]
    constructor
    · intro h
      cases h.ok
    · rintro ⟨⟨⟩, -⟩
  | ok failed =>
    have hnone : failed = [] := hfailed failed rfl
    subst hnone
    rw [go_bind_ok hrun]
    constructor
    · intro h
      exact ⟨rfl, h.transfers, h.present⟩
    · rintro ⟨-, htransfers, hpresent⟩
      exact ⟨rfl, htransfers, hpresent⟩

theorem sane_of_closed {entry : String × List String} (refs : List String)
    (hrequired : requiredRefs registry entry.1 entry.2 = refs)
    (hnames : ∀ r ∈ refs, base r = base entry.1 ∧ '/' ∈ r.toList ∧ '\n' ∉ r.toList)
    (hpairwise : refs.Pairwise fun r t => ¬ r.toList <:+ t.toList ∧ ¬ t.toList <:+ r.toList)
    (hnonempty : refs ≠ []) : Sane registry entry := by
  subst hrequired
  constructor
  · intro r hr
    exact (hnames r hr).1
  · intro r hr
    exact (hnames r hr).2.1
  · exact ⟨hpairwise, fun r hr => (hnames r hr).2.2⟩
  · exact hnonempty

theorem images_sane (hregistry : '\n' ∉ registry.toList) :
    ∀ entry ∈ IMAGES, Sane registry entry := by
  rw [IMAGES]
  simp only [List.forall_mem_cons]
  refine ⟨?_, ?_, ?_, ?_, ?_, ?_, ?_, List.forall_mem_nil _⟩
  · apply sane_of_closed [registry ++ "/" ++ "signet-api:latest"] rfl
    · rw [List.forall_mem_singleton]
      refine ⟨base_append registry "signet-api:latest", ?_, ?_⟩
      · simp
      · simpa using hregistry
    · exact List.pairwise_singleton _ _
    · exact List.cons_ne_nil _ _
  · exact sane_of_closed ["docker.io/library/signet-signer:dev"] rfl (by decide)
      (by decide) (by decide)
  · exact sane_of_closed ["docker.io/library/signet-faucet:dev"] rfl (by decide)
      (by decide) (by decide)
  · exact sane_of_closed ["docker.io/library/electrs:dev",
      "docker.io/library/electrs:0.11.1"] rfl (by decide) (by decide) (by decide)
  · exact sane_of_closed ["docker.io/bitcoin/bitcoin:29.4"] rfl (by decide)
      (by decide) (by decide)
  · exact sane_of_closed ["docker.io/mempool/backend:v3.3.1"] rfl (by decide)
      (by decide) (by decide)
  · exact sane_of_closed ["docker.io/mempool/frontend:v3.3.1"] rfl (by decide)
      (by decide) (by decide)

theorem images_bases : (IMAGES.map fun entry => base entry.1).Nodup := by decide

/-- Every image ends up in the node, without a failure, exactly when each entry can be
resolved. -/
theorem ensureImages_resolved_iff (hregistry : '\n' ∉ registry.toList) (tempDir : String)
    (hquiet : s.Quiet) :
    Resolved registry IMAGES (go (ensureImages registry tempDir).run s) ↔
      ∀ entry ∈ IMAGES, Resolvable registry entry s s.listing :=
  ensureTable_resolved_iff (images_sane hregistry) images_bases hquiet

/-- Upstream images in the node, and ours on the host. -/
def stocked : Images where
  node := ["docker.io/bitcoin/bitcoin:29.4", "docker.io/mempool/backend:v3.3.1",
    "docker.io/mempool/frontend:v3.3.1"]
  host := ["docker.io/library/signet-api:latest", "ghcr.io/nully0x/signet-signer:latest",
    "docker.io/library/signet-faucet:latest", "docker.io/library/electrs:latest"]
  archive := none
  copied := none
  printed := []

theorem ensureImages_resolved_stocked : Resolved "ghcr.io/nully0x" IMAGES
    (go (ensureImages "ghcr.io/nully0x" "/tmp").run stocked) := by
  have hsane : ∀ entry ∈ IMAGES, Sane "ghcr.io/nully0x" entry := images_sane (by decide)
  apply (ensureImages_resolved_iff (by decide) "/tmp" fun _ => List.not_mem_nil).2
  intro entry hentry
  have hlisted := (hsane entry hentry).listed_iff (s := stocked) (by decide)
  revert entry
  rw [IMAGES]
  simp only [List.forall_mem_cons]
  refine ⟨?_, ?_, ?_, ?_, ?_, ?_, ?_, List.forall_mem_nil _⟩
  · intro hlisted
    exact (resolvable_of_host "signet-api:latest" (mt hlisted.1 (by decide)) (by decide)).2
      (by decide)
  · intro hlisted
    exact (resolvable_of_host "ghcr.io/nully0x/signet-signer:latest" (mt hlisted.1 (by decide))
      (by decide)).2 (by decide)
  · intro hlisted
    exact (resolvable_of_host "signet-faucet:latest" (mt hlisted.1 (by decide)) (by decide)).2
      (by decide)
  · intro hlisted
    exact (resolvable_of_host "electrs:latest" (mt hlisted.1 (by decide)) (by decide)).2
      (by decide)
  · intro hlisted
    exact (resolvable_of_listed (hlisted.2 (by decide))).2 (by decide)
  · intro hlisted
    exact (resolvable_of_listed (hlisted.2 (by decide))).2 (by decide)
  · intro hlisted
    exact (resolvable_of_listed (hlisted.2 (by decide))).2 (by decide)

/-- Nothing in the node or on the host. -/
def bare : Images := ⟨[], [], none, none, []⟩

/-- Ours in the node, and upstream images on the host. -/
def upstream : Images where
  node := ["ghcr.io/nully0x/signet-api:latest", "docker.io/library/signet-signer:dev",
    "docker.io/library/signet-faucet:dev", "docker.io/library/electrs:dev",
    "docker.io/library/electrs:0.11.1"]
  host := ["docker.io/bitcoin/bitcoin:29.4", "docker.io/mempool/backend:v3.3.1",
    "docker.io/mempool/frontend:v3.3.1"]
  archive := none
  copied := none
  printed := []

/-- A pulled image is tagged onto itself, and an imported one is looked for under its short
name. -/
theorem ensureImages_unresolved :
    ¬ Resolved "ghcr.io/nully0x" IMAGES (go (ensureImages "ghcr.io/nully0x" "/tmp").run bare) ∧
    ¬ Resolved "ghcr.io/nully0x" IMAGES
      (go (ensureImages "ghcr.io/nully0x" "/tmp").run upstream) := by
  constructor
  · intro h
    have hfailed : (go (ensureImages "ghcr.io/nully0x" "/tmp").run bare).1 = .error "failed" := rfl
    cases hfailed.symm.trans h.ok
  · intro h
    have hentry : ("bitcoin/bitcoin:29.4", []) ∈ IMAGES := by decide
    have hsane : ∀ entry ∈ IMAGES, Sane "ghcr.io/nully0x" entry := images_sane (by decide)
    have hresolvable := (ensureTable_resolved_iff hsane images_bases fun _ => List.not_mem_nil).1 h
      _ hentry
    have hlisted := (hsane _ hentry).listed_iff (s := upstream) (by decide)
    have hhost := (resolvable_of_host "bitcoin/bitcoin:29.4" (mt hlisted.1 (by decide))
      (by decide)).1 hresolvable
    exact absurd hhost.1 (by decide)

end

end SignetSandbox.Local
