import Mathlib.Data.Finset.Card
import OnTheFly.Proofs.StateSpace.Listing

/-!
Contract: fingerprints never decide which state a graph belongs to.

Owns: the contents of the index, the number of collisions, and that a state
space answers alike whatever the fingerprints of its graphs are.
-/

set_option autoImplicit false

namespace OnTheFly

/-- The same rules with other fingerprints. -/
abbrev RuleSystem.withFingerprint (R : RuleSystem) (fingerprint : R.Graph → Fingerprint) :
    RuleSystem :=
  { R with fingerprint := fingerprint }

namespace StateSpace

variable {R : RuleSystem}

/-- The stored graphs in order of creation. -/
def graphs (space : StateSpace R) : List R.Graph :=
  space.states.toList.map (·.graph)

/-! ## The index -/

/-- Under each fingerprint stand the states with that fingerprint, in order, and
each state but the first with its fingerprint counts as a collision. -/
structure Filed (space : StateSpace R) : Prop where
  bucket (key : UInt64) : space.index.getD key [] =
    (space.graphs.zipIdx.filter fun entry => (R.fingerprint entry.1).value = key).map fun entry =>
      ⟨entry.2⟩
  collisions : space.collisions + (space.graphs.map R.fingerprint).toFinset.card =
    space.graphs.length

/-- Whether two state spaces store the same graphs in the same order. -/
structure SameFiles (space later : StateSpace R) : Prop where
  graphs : later.graphs = space.graphs
  index : later.index = space.index
  collisions : later.collisions = space.collisions

theorem SameFiles.refl (space : StateSpace R) : space.SameFiles space :=
  ⟨rfl, rfl, rfl⟩

theorem SameFiles.trans {first second third : StateSpace R} (before : first.SameFiles second)
    (after : second.SameFiles third) : first.SameFiles third :=
  ⟨after.graphs.trans before.graphs, after.index.trans before.index,
    after.collisions.trans before.collisions⟩

theorem Filed.sameFiles {space later : StateSpace R} (filed : space.Filed)
    (same : space.SameFiles later) : later.Filed where
  bucket key := by rw [same.index, same.graphs, filed.bucket]
  collisions := by rw [same.collisions, same.graphs, filed.collisions]

theorem sameFiles_modifyState (space : StateSpace R) (state : StateId)
    {change : StateInfo R → StateInfo R} (graph : ∀ info, (change info).graph = info.graph) :
    space.SameFiles (space.modifyState state change) := by
  refine ⟨List.ext_getElem? fun position => ?_, rfl, rfl⟩
  simp only [graphs, modifyState, List.getElem?_map, Array.getElem?_toList, Array.getElem?_modify]
  split
  · cases space.states[position]? <;> simp [graph]
  · rfl

theorem sameFiles_notify (space : StateSpace R) (event : Event) :
    space.SameFiles (space.notify event) :=
  ⟨rfl, rfl, rfl⟩

theorem sameFiles_close (space : StateSpace R) (state : StateId) :
    space.SameFiles (space.close state) := by
  unfold close
  split
  · exact .refl space
  · refine SameFiles.trans ?_ (sameFiles_notify _ _)
    exact space.sameFiles_modifyState state fun _ => rfl

theorem sameFiles_closeIfDone (space : StateSpace R) (state : StateId) :
    space.SameFiles (space.closeIfDone state) := by
  unfold closeIfDone
  split
  · exact space.sameFiles_close state
  · exact .refl space

theorem sameFiles_ensureMatches (space : StateSpace R) (state : StateId) :
    space.SameFiles (space.ensureMatches state) := by
  unfold ensureMatches
  split
  · exact .refl space
  · rename_i info _
    split
    · exact .refl space
    · have asked : space.SameFiles
          (space.modifyState state ({ · with pending := some (R.matchesOf info.graph) })) :=
        space.sameFiles_modifyState state fun _ => rfl
      simp only
      split
      · exact asked.trans (sameFiles_close _ state)
      · exact asked

theorem sameFiles_addTransition (space : StateSpace R) (added : Transition) (fresh : Bool) :
    space.SameFiles (space.addTransition added fresh) := by
  have listed : space.SameFiles { space with transitions := space.transitions.push added } :=
    ⟨rfl, rfl, rfl⟩
  unfold addTransition
  refine SameFiles.trans (listed.trans ?_) (sameFiles_notify _ _)
  cases fresh with
  | false => exact sameFiles_modifyState _ added.source fun _ => rfl
  | true =>
      refine SameFiles.trans ?_ (sameFiles_modifyState _ added.target fun _ => rfl)
      exact sameFiles_modifyState _ added.source fun _ => rfl

theorem Filed.addState {space : StateSpace R} (filed : space.Filed) (graph : R.Graph)
    (depth : Nat) : (space.addState graph depth).Filed := by
  have graphs : (space.addState graph depth).graphs = space.graphs ++ [graph] := by
    simp [StateSpace.graphs, StateSpace.addState]
  have length : space.graphs.length = space.states.size := by simp [StateSpace.graphs]
  constructor
  · intro key
    rw [index_addState, graphs, List.zipIdx_append, List.filter_append, List.map_append,
      ← filed.bucket, length]
    split <;> simp_all
  · -- The bucket of the graph is empty just when its fingerprint is new.
    have isNew : (space.index.getD (R.fingerprint graph).value []).isEmpty = true ↔
        R.fingerprint graph ∉ (space.graphs.map R.fingerprint).toFinset := by
      rw [filed.bucket, List.isEmpty_iff, List.map_eq_nil_iff, List.filter_eq_nil_iff,
        List.mem_toFinset, List.mem_map]
      constructor
      · rintro nobody ⟨stored, member, same⟩
        obtain ⟨position, found⟩ := List.mem_iff_getElem?.1 member
        exact nobody (stored, position) (List.mem_zipIdx_iff_getElem?.2 found)
          (decide_eq_true (congrArg Fingerprint.value same))
      · intro unknown entry listed same
        have value : (R.fingerprint entry.1).value = (R.fingerprint graph).value := by
          simpa using same
        exact unknown ⟨entry.1, List.fst_mem_of_mem_zipIdx listed, congrArg Fingerprint.mk value⟩
    have collisions : (space.addState graph depth).collisions =
        if (space.index.getD (R.fingerprint graph).value []).isEmpty then space.collisions
        else space.collisions + 1 := rfl
    have before := filed.collisions
    have distinct : ((space.graphs ++ [graph]).map R.fingerprint).toFinset =
        Insert.insert (R.fingerprint graph) (space.graphs.map R.fingerprint).toFinset := by
      ext other
      simp
    rw [collisions, graphs, distinct, List.length_append, List.length_singleton]
    by_cases unknown : R.fingerprint graph ∉ (space.graphs.map R.fingerprint).toFinset
    · rw [if_pos (isNew.2 unknown), Finset.card_insert_of_notMem unknown]
      omega
    · rw [if_neg (mt isNew.1 unknown), Finset.insert_eq_of_mem (not_not.1 unknown)]
      omega

theorem Filed.recordApplication {space : StateSpace R} (filed : space.Filed) (state : StateId)
    (position : Nat) (rule : String) (graph : R.Graph) :
    (space.recordApplication state position rule graph).2.Filed := by
  have taken : (space.withoutMatch state position).Filed :=
    filed.sameFiles (space.sameFiles_modifyState state fun _ => rfl)
  cases inserted : (space.withoutMatch state position).insert (R.canonicalize graph)
      (space.depth state + 1) with
  | mk entry extended =>
      obtain ⟨target, fresh⟩ := entry
      have stored : extended.Filed := by
        rcases insert_cases inserted with ⟨_, _, rfl⟩ | ⟨_, rfl, _⟩
        · exact taken.addState _ _
        · exact taken
      rw [recordApplication_eq space state position rule graph inserted]
      exact (stored.sameFiles (sameFiles_addTransition _ _ _)).sameFiles
        (sameFiles_closeIfDone _ _)

theorem Filed.applyMatch {space : StateSpace R} (filed : space.Filed) (state : StateId)
    (position : Nat) : (space.applyMatch state position).2.Filed := by
  have asked : (space.ensureMatches state).Filed :=
    filed.sameFiles (space.sameFiles_ensureMatches state)
  unfold StateSpace.applyMatch
  simp only
  split
  · rename_i candidate graph _ _
    cases R.apply (space.ensureMatches state).engine graph candidate with
    | mk result engine =>
        have reminded : Filed { space.ensureMatches state with engine := engine } :=
          asked.sameFiles ⟨rfl, rfl, rfl⟩
        cases result with
        | error error => exact reminded
        | ok target => exact reminded.recordApplication state position _ target
  · exact asked

theorem Grows.filed {space later : StateSpace R} (filed : space.Filed)
    (grows : space.Grows later) : later.Filed := by
  cases grows with
  | ask state => exact filed.sameFiles (space.sameFiles_ensureMatches state)
  | apply state position => exact filed.applyMatch state position
  | drain => exact filed.sameFiles ⟨rfl, rfl, rfl⟩
  | remind engine => exact filed.sameFiles ⟨rfl, rfl, rfl⟩

theorem filed_create (engine : R.Engine) : (create R engine).Filed := by
  have nothing : Filed ({ engine := engine } : StateSpace R) :=
    ⟨fun _ => Std.TreeMap.getD_emptyc, rfl⟩
  exact nothing.addState R.startGraph 0

theorem HasHistory.filed {space : StateSpace R} (history : space.HasHistory) : space.Filed := by
  obtain ⟨engine, evolves⟩ := history
  induction evolves with
  | refl => exact filed_create engine
  | tail _ grows inductionHypothesis => exact grows.filed inductionHypothesis

/-! ## Identity -/

/-- What holds of a state space whatever the fingerprints are: each graph is
stored once, a graph is found just where its representative is stored, and the
collisions are the states without a fingerprint of their own. -/
structure Identifies (space : StateSpace R) : Prop where
  stored_once {first second : StateId} {graph : R.Graph} :
    space.graph? first = some graph → space.graph? second = some graph → first = second
  lookup_iff {graph : R.Graph} {state : StateId} :
    space.lookup? graph = some state ↔ space.graph? state = some (R.canonicalize graph)
  collisions : space.collisions + (space.graphs.map R.fingerprint).toFinset.card = space.size

theorem HasHistory.identifies {space : StateSpace R} (history : space.HasHistory) :
    space.Identifies where
  stored_once := history.wellFormed.stored_once
  lookup_iff := history.wellFormed.findStored?_iff
  collisions := by
    rw [history.filed.collisions]
    simp [graphs, size]

/-- **Fingerprints never decide identity.** Whatever is asked of a state space,
its answers and all that it stores are those of a listing, which searches all
states for an equal graph; so they are the same for any two choices of
fingerprints. -/
theorem fingerprints_never_identify (R : RuleSystem) (engine : R.Engine)
    (requests : List (Request R.Graph R.Engine)) :
    (∀ fingerprint : R.Graph → Fingerprint,
      let served := (create (R.withFingerprint fingerprint) engine).serve requests
      (served.1, served.2.listing) =
          (Listing.create R.rewriting engine).serve R.rewriting requests ∧
        served.2.Identifies) ∧
    ∀ first second : R.Graph → Fingerprint,
      let served := (create (R.withFingerprint first) engine).serve requests
      let others := (create (R.withFingerprint second) engine).serve requests
      served.1 = others.1 ∧ served.2.listing = others.2.listing := by
  have history (fingerprint : R.Graph → Fingerprint) :
      (create (R.withFingerprint fingerprint) engine).HasHistory := ⟨engine, .refl⟩
  have agrees (fingerprint : R.Graph → Fingerprint) :
      let served := (create (R.withFingerprint fingerprint) engine).serve requests
      (served.1, served.2.listing) =
        (Listing.create R.rewriting engine).serve R.rewriting requests :=
    ((history fingerprint).wellFormed.listing_serve requests).symm
  refine ⟨fun fingerprint => ⟨agrees fingerprint, ?_⟩, fun first second => ?_⟩
  · exact ((history fingerprint).evolves
      (serve_evolves (create (R.withFingerprint fingerprint) engine) requests)).identifies
  · exact Prod.mk.inj ((agrees first).trans (agrees second).symm)

end StateSpace

end OnTheFly
