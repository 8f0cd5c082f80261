import BulkTraffic.Lib.Runs
import BulkTraffic.Orders.Publisher

/-!
# Preparing the order topics

Every server that starts in Kafka mode lists the topics of the cluster, creates the order topics that
are missing and compares the partitions of the others with what it expects (`provision`). Other clients
create topics too, a broker with automatic creation among them, and somebody may add partitions.

The cluster answers one call at a time, through a `TopicAdmin` of which only its documented behaviour is
used (`TopicAdmin.Answers`): it lists and describes the topics that are there and creates those that are
not. A topic that is there when it is to be created stays as it is, and `createTopics` does not throw then.
Nobody deletes a topic.

* `step`: any number of servers, and the other clients, in any order of the calls.
* `Prepared`: what a server knows at each of its calls.
* `provision_report`: after a report every order topic is there. A topic with too few partitions is
  missing from the warnings exactly when the report says that the server has created it and somebody
  else has. Servers that look later create nothing, and no topic loses partitions.

`creator` is no part of Kafka: the server whose `createTopics` has made the topic.
-/

namespace BulkTraffic.Orders

open BulkTraffic.Lib

/-! ### The cluster -/

/-- A topic. -/
structure ClusterTopic where
  /-- Its partitions. -/
  partitions : ℕ
  /-- On how many brokers each of them is. -/
  replicationFactor : ℕ
  /-- The server that has made it, if one has. -/
  creator : Option ℕ
  deriving DecidableEq

/-- The topics of a cluster. -/
abbrev Cluster := String → Option ClusterTopic

/-- The topics of `old` are still there, none with fewer partitions. -/
def Cluster.Keeps (old new : Cluster) : Prop :=
  ∀ name topic, old name = some topic → ∃ now, new name = some now ∧
    now.replicationFactor = topic.replicationFactor ∧ now.creator = topic.creator ∧
    topic.partitions ≤ now.partitions

/-- Topics made by one client have come, and partitions. -/
structure Cluster.Grows (old new : Cluster) (maker : Option ℕ) : Prop where
  keeps : old.Keeps new
  /-- The new ones. -/
  fresh : ∀ name topic, old name = none → new name = some topic → topic.creator = maker

namespace Cluster

variable {a b c : Cluster} {maker : Option ℕ}

theorem Keeps.refl (a : Cluster) : a.Keeps a :=
  fun _ topic h => ⟨topic, h, rfl, rfl, le_rfl⟩

theorem Keeps.trans (h : a.Keeps b) (h' : b.Keeps c) : a.Keeps c := by
  intro name topic htopic
  obtain ⟨now, hnow, hfactor, hcreator, hle⟩ := h name topic htopic
  obtain ⟨later, hlater, hfactor', hcreator', hle'⟩ := h' name now hnow
  exact ⟨later, hlater, hfactor'.trans hfactor, hcreator'.trans hcreator, hle.trans hle'⟩

theorem Keeps.isSome (h : a.Keeps b) {name : String} (ha : (a name).isSome) : (b name).isSome := by
  obtain ⟨topic, htopic⟩ := Option.isSome_iff_exists.mp ha
  obtain ⟨now, hnow, -⟩ := h name topic htopic
  exact Option.isSome_iff_exists.mpr ⟨now, hnow⟩

theorem Grows.refl (a : Cluster) (maker : Option ℕ) : a.Grows a maker where
  keeps := .refl a
  fresh name topic hnone hsome := by simp [hnone] at hsome

theorem Grows.update {name : String} (h : a name = none) (topic : ClusterTopic) :
    a.Grows (Function.update a name (some topic)) topic.creator where
  keeps other old hold := by
    refine ⟨old, ?_, rfl, rfl, le_rfl⟩
    rwa [Function.update_of_ne]
    rintro rfl
    simp [h] at hold
  fresh other now hnone hnow := by
    by_cases hother : other = name
    · subst hother
      rw [Function.update_self] at hnow
      exact Option.some.inj hnow ▸ rfl
    · rw [Function.update_of_ne hother, hnone] at hnow
      cases hnow

theorem Grows.addPartitions {name : String} {topic : ClusterTopic} {partitions : ℕ} (h : a name = some topic)
    (hle : topic.partitions ≤ partitions) (maker : Option ℕ) :
    a.Grows (Function.update a name (some { topic with partitions := partitions })) maker where
  keeps other old hold := by
    by_cases hother : other = name
    · subst hother
      obtain rfl := Option.some.inj (h.symm.trans hold)
      exact ⟨_, Function.update_self .., rfl, rfl, hle⟩
    · exact ⟨old, by rwa [Function.update_of_ne hother], rfl, rfl, le_rfl⟩
  fresh other now hnone hnow := by
    by_cases hother : other = name
    · subst hother
      simp [h] at hnone
    · rw [Function.update_of_ne hother, hnone] at hnow
      cases hnow

/-- A topic that is there now was there before, or is the maker's. -/
theorem Grows.before (h : a.Grows b maker) {p : ℕ} (hmaker : maker ≠ some p) {name : String} {now : ClusterTopic}
    (hnow : b name = some now) :
    (∃ topic, a name = some topic ∧ now.creator = topic.creator ∧ topic.partitions ≤ now.partitions) ∨
    now.creator ≠ some p := by
  cases ha : a name with
  | none => exact .inr (h.fresh name now ha hnow ▸ hmaker)
  | some topic =>
    obtain ⟨now', hnow', -, hcreator, hle⟩ := h.keeps name topic ha
    obtain rfl := Option.some.inj (hnow.symm.trans hnow')
    exact .inl ⟨topic, rfl, hcreator, hle⟩

end Cluster

/-- `Object.values(ORDER_TOPICS)`. -/
def orderTopicValues : List String :=
  [orderTopics .created, orderTopics .inventoryReserved, orderTopics .paymentApproved,
    orderTopics .shipmentStarted]

/-- The `Admin` of the cluster. -/
structure TopicAdmin where
  /-- `listTopics()`. -/
  listTopics : Cluster → List String
  /-- `createTopics({ topics })`, each with the same settings. -/
  createTopics : Cluster → List String → ClusterTopic → Cluster
  /-- `fetchTopicMetadata({ topics })`: the names and how many partitions they have. -/
  fetchTopicMetadata : Cluster → List String → List (String × ℕ)

/-- It lists and describes the topics that are there, and creates those that are not. -/
structure TopicAdmin.Answers (admin : TopicAdmin) : Prop where
  /-- Of the order topics those that are there are listed. -/
  lists : ∀ (cluster : Cluster), ∀ name ∈ orderTopicValues,
    name ∈ admin.listTopics cluster ↔ (cluster name).isSome
  /-- A topic that is there stays as it is. -/
  leaves : ∀ {cluster : Cluster} {topics : List String} {name : String} {old : ClusterTopic}
    (topic : ClusterTopic), cluster name = some old → admin.createTopics cluster topics topic name = some old
  /-- One that is not is created as it is asked for. -/
  creates : ∀ {cluster : Cluster} {topics : List String} {name : String} (topic : ClusterTopic),
    cluster name = none →
      admin.createTopics cluster topics topic name = if name ∈ topics then some topic else none
  /-- Topics that are there are described, each by its name and its partitions. -/
  describes : ∀ {cluster : Cluster} {topics : List String}, (∀ name ∈ topics, (cluster name).isSome) →
    ∀ name partitions, (name, partitions) ∈ admin.fetchTopicMetadata cluster topics ↔
      name ∈ topics ∧ ∃ topic, cluster name = some topic ∧ topic.partitions = partitions

namespace TopicAdmin.Answers

variable {admin : TopicAdmin} (hadmin : admin.Answers) (cluster : Cluster) (topic : ClusterTopic)
include hadmin

/-- `createTopics` leaves what is there. -/
theorem grows_createTopics (topics : List String) :
    cluster.Grows (admin.createTopics cluster topics topic) topic.creator where
  keeps name old h := ⟨old, hadmin.leaves topic h, rfl, rfl, le_rfl⟩
  fresh name now hnone h := by
    rw [hadmin.creates topic hnone] at h
    split at h
    · exact Option.some.inj h ▸ rfl
    · cases h

/-- The topics in `topics` are there behind `createTopics`. -/
theorem isSome_createTopics {topics : List String} {name : String} (h : name ∈ topics) :
    (admin.createTopics cluster topics topic name).isSome := by
  cases hname : cluster name with
  | none => rw [hadmin.creates topic hname, if_pos h]; rfl
  | some old => rw [hadmin.leaves topic hname]; rfl

end TopicAdmin.Answers

/-! ### Provisioning -/

/-- What `provision` reads of its `TopicProvisionerConfig`. -/
structure TopicProvisionerConfig where
  brokers : List String
  enabled : Bool
  partitions : ℕ
  replicationFactor : ℕ

/-- An entry of `underPartitioned`. -/
structure UnderPartitioned where
  topic : String
  actual : ℕ
  expected : ℕ
  deriving DecidableEq

/-- `ProvisionReport`. -/
structure ProvisionReport where
  created : List String
  existing : List String
  underPartitioned : List UnderPartitioned
  deriving DecidableEq

/-- The call a provisioner is waiting for. -/
inductive ProvisionPhase where
  /-- `onModuleInit` has not run. -/
  | waiting
  /-- It is turned off. -/
  | skipped
  /-- `listTopics`. -/
  | listing
  /-- `createTopics`. -/
  | creating (missing existing : List String)
  /-- `fetchTopicMetadata`. -/
  | describing (missing existing : List String)
  /-- None: the report is there. -/
  | done (report : ProvisionReport)
  /-- None: `provision` has thrown. -/
  | failed
  deriving DecidableEq

/-- The servers and their cluster. -/
structure Provisioning where
  /-- The topics. -/
  cluster : Cluster
  /-- The provisioner of each server. -/
  phase : ℕ → ProvisionPhase

/-- What can happen. -/
inductive ProvisionEvent where
  /-- A server starts. -/
  | onModuleInit (p : ℕ)
  /-- `listTopics` is answered. -/
  | listTopics (p : ℕ)
  /-- `createTopics` is answered. -/
  | createTopics (p : ℕ)
  /-- `fetchTopicMetadata` is answered. -/
  | fetchTopicMetadata (p : ℕ)
  /-- The call rejects. Of the topics to create, some may have been made. -/
  | rejects (p : ℕ) (made : List String)
  /-- Another client makes a topic. -/
  | otherCreates (name : String) (partitions replicationFactor : ℕ)
  /-- Somebody adds partitions. -/
  | grows (name : String) (partitions : ℕ)

namespace Provisioning

variable (admin : TopicAdmin) (config : ℕ → TopicProvisionerConfig)

/-- The servers have not started. -/
def initial (cluster : Cluster) : Provisioning where
  cluster := cluster
  phase _ := .waiting

/-- A server goes on. -/
def enter (s : Provisioning) (p : ℕ) (phase : ProvisionPhase) : Provisioning :=
  { s with phase := Function.update s.phase p phase }

/-- What a server asks `createTopics` for. -/
def wantedTopic (p : ℕ) : ClusterTopic where
  partitions := (config p).partitions
  replicationFactor := (config p).replicationFactor
  creator := some p

/-- `findUnderPartitioned(admin, topics, expected)`, with the answer of `fetchTopicMetadata`. -/
def findUnderPartitioned (cluster : Cluster) (topics : List String) (expected : ℕ) : List UnderPartitioned :=
  let entries : List UnderPartitioned := (admin.fetchTopicMetadata cluster topics).map fun described =>
    { topic := described.1, actual := described.2, expected := expected }
  entries.filter fun entry => entry.actual < entry.expected

/-- Behind `createTopics`: without existing topics there is nothing to ask for. -/
def afterCreating (missing existing : List String) : ProvisionPhase :=
  if existing = [] then .done { created := missing, existing := existing, underPartitioned := [] }
  else .describing missing existing

/-- Behind `listTopics`. -/
def afterListing (cluster : Cluster) : ProvisionPhase :=
  let existingNames := admin.listTopics cluster
  let missing := orderTopicValues.filter fun name => !existingNames.contains name
  let existing := orderTopicValues.filter fun name => existingNames.contains name
  if missing = [] then afterCreating missing existing else .creating missing existing

/-- One step. -/
def step (s : Provisioning) : ProvisionEvent → Option Provisioning
  | .onModuleInit p =>
    match s.phase p with
    | .waiting =>
      some (s.enter p (if !(config p).enabled then .skipped
        else if (config p).brokers = [] then .failed else .listing))
    | _ => none
  | .listTopics p =>
    match s.phase p with
    | .listing => some (s.enter p (afterListing admin s.cluster))
    | _ => none
  | .createTopics p =>
    match s.phase p with
    | .creating missing existing =>
      some { s.enter p (afterCreating missing existing) with
        cluster := admin.createTopics s.cluster missing (wantedTopic config p) }
    | _ => none
  | .fetchTopicMetadata p =>
    match s.phase p with
    | .describing missing existing =>
      some (s.enter p (.done
        { created := missing, existing := existing,
          underPartitioned := findUnderPartitioned admin s.cluster existing (config p).partitions }))
    | _ => none
  | .rejects p made =>
    match s.phase p with
    | .creating missing _ =>
      some { s.enter p .failed with
        cluster := admin.createTopics s.cluster (missing.filter (· ∈ made)) (wantedTopic config p) }
    | .listing | .describing _ _ => some (s.enter p .failed)
    | _ => none
  | .otherCreates name partitions replicationFactor =>
    match s.cluster name with
    | none => some { s with cluster := Function.update s.cluster name (some
        { partitions := partitions, replicationFactor := replicationFactor, creator := none }) }
    | some _ => none
  | .grows name partitions =>
    match s.cluster name with
    | some topic =>
      if topic.partitions ≤ partitions then
        some { s with cluster := Function.update s.cluster name (some { topic with partitions := partitions }) }
      else none
    | none => none

variable {admin config} {s t : Provisioning} {cluster new : Cluster} {p q : ℕ}

/-! ### What a step does -/

/-- A call of the server `p` and its answer: its phase before and behind it, and the topics then. -/
inductive Turn (admin : TopicAdmin) (config : ℕ → TopicProvisionerConfig) (p : ℕ) (cluster : Cluster) :
    ProvisionPhase → ProvisionPhase → Cluster → Prop where
  | skips : Turn admin config p cluster .waiting .skipped cluster
  | refuses : Turn admin config p cluster .waiting .failed cluster
  | starts : Turn admin config p cluster .waiting .listing cluster
  | lists : Turn admin config p cluster .listing (afterListing admin cluster) cluster
  | creates (missing existing : List String) :
      Turn admin config p cluster (.creating missing existing) (afterCreating missing existing)
        (admin.createTopics cluster missing (wantedTopic config p))
  | describes (missing existing : List String) :
      Turn admin config p cluster (.describing missing existing)
        (.done
          { created := missing, existing := existing,
            underPartitioned := findUnderPartitioned admin cluster existing (config p).partitions }) cluster
  | listingFails : Turn admin config p cluster .listing .failed cluster
  | creatingFails (missing existing made : List String) :
      Turn admin config p cluster (.creating missing existing) .failed
        (admin.createTopics cluster made (wantedTopic config p))
  | describingFails (missing existing : List String) :
      Turn admin config p cluster (.describing missing existing) .failed cluster

/-- The server `p` goes on, and the others stay where they are. -/
theorem Turn.moves {next : ProvisionPhase} (hturn : Turn admin config p s.cluster (s.phase p) next new)
    (h : some { s.enter p next with cluster := new } = some t) :
    ∃ p, Turn admin config p s.cluster (s.phase p) (t.phase p) t.cluster ∧ ∀ q ≠ p, t.phase q = s.phase q := by
  simp only [Option.some.injEq] at h
  subst h
  refine ⟨p, ?_, fun q hq => Function.update_of_ne hq _ _⟩
  simp only [enter, Function.update_self]
  exact hturn

/-- **A step** is a call of one server, or another client's. -/
theorem step_cases {e : ProvisionEvent} (h : step admin config s e = some t) :
    (∃ p, Turn admin config p s.cluster (s.phase p) (t.phase p) t.cluster ∧ ∀ q ≠ p, t.phase q = s.phase q) ∨
    t.phase = s.phase ∧ s.cluster.Grows t.cluster none := by
  cases e with
  | onModuleInit p =>
    simp only [step] at h
    split at h
    · rename_i hp
      refine .inl (Turn.moves ?_ h)
      rw [hp]
      split
      · exact .skips
      split
      · exact .refuses
      · exact .starts
    · cases h
  | listTopics p =>
    simp only [step] at h
    split at h
    · rename_i hp
      exact .inl (Turn.moves (hp ▸ .lists) h)
    · cases h
  | createTopics p =>
    simp only [step] at h
    split at h
    · rename_i missing existing hp
      exact .inl (Turn.moves (hp ▸ .creates missing existing) h)
    · cases h
  | fetchTopicMetadata p =>
    simp only [step] at h
    split at h
    · rename_i missing existing hp
      exact .inl (Turn.moves (hp ▸ .describes missing existing) h)
    · cases h
  | rejects p made =>
    simp only [step] at h
    split at h
    · rename_i missing existing hp
      exact .inl (Turn.moves (hp ▸ .creatingFails missing existing _) h)
    · rename_i hp
      exact .inl (Turn.moves (hp ▸ .listingFails) h)
    · rename_i missing existing hp
      exact .inl (Turn.moves (hp ▸ .describingFails missing existing) h)
    · cases h
  | otherCreates name partitions replicationFactor =>
    simp only [step] at h
    split at h
    · rename_i hnone
      simp only [Option.some.injEq] at h
      subst h
      exact .inr ⟨rfl, .update hnone _⟩
    · cases h
  | grows name partitions =>
    simp only [step] at h
    split at h
    · rename_i topic hsome
      split at h
      · rename_i hle
        simp only [Option.some.injEq] at h
        subst h
        exact .inr ⟨rfl, .addPartitions hsome hle _⟩
      · cases h
    · cases h

/-- One client makes topics, or somebody adds partitions. -/
theorem Turn.grows (hadmin : admin.Answers) {phase next : ProvisionPhase}
    (h : Turn admin config p cluster phase next new) : cluster.Grows new (some p) := by
  cases h with
  | creates missing existing => exact hadmin.grows_createTopics cluster (wantedTopic config p) missing
  | creatingFails missing existing made => exact hadmin.grows_createTopics cluster (wantedTopic config p) made
  | _ => exact .refl cluster _

theorem keeps_of_step (hadmin : admin.Answers) {e : ProvisionEvent}
    (h : step admin config s e = some t) : s.cluster.Keeps t.cluster := by
  obtain ⟨p, hturn, -⟩ | ⟨-, hgrows⟩ := step_cases h
  · exact (hturn.grows hadmin).keeps
  · exact hgrows.keeps

/-- No topic goes, and none loses partitions. -/
theorem keeps_of_reaches (hadmin : admin.Answers) (h : Reachable (step admin config) s t) :
    s.cluster.Keeps t.cluster :=
  h.invariant (P := fun u => s.cluster.Keeps u.cluster) (.refl _) fun _ _ _ hkeeps _ hstep =>
    hkeeps.trans (keeps_of_step hadmin hstep)

/-! ### What a server knows -/

/-- The server `p` has made no topic. -/
def NotMade (cluster : Cluster) (p : ℕ) : Prop :=
  ∀ name topic, cluster name = some topic → topic.creator ≠ some p

/-- The order topics that were missing when they were listed, and those that were there. -/
structure Listed (cluster : Cluster) (missing existing : List String) : Prop where
  either : ∀ name ∈ orderTopicValues, name ∈ missing ↔ name ∉ existing
  there : ∀ name ∈ existing, (cluster name).isSome

/-- Behind `createTopics`. -/
structure Made (config : ℕ → TopicProvisionerConfig) (cluster : Cluster) (p : ℕ) (missing : List String) :
    Prop where
  there : ∀ name ∈ missing, (cluster name).isSome
  /-- The topics that the server itself has made. -/
  own : ∀ name topic, cluster name = some topic → topic.creator = some p →
    name ∈ missing ∧ (config p).partitions ≤ topic.partitions

/-- The warnings of a report. -/
structure Compared (config : ℕ → TopicProvisionerConfig) (cluster : Cluster) (p : ℕ) (r : ProvisionReport) :
    Prop where
  warned : ∀ u ∈ r.underPartitioned, u.topic ∈ r.existing ∧ u.actual < u.expected ∧
    u.expected = (config p).partitions
  /-- None is missing. -/
  complete : ∀ name ∈ r.existing, ∀ topic, cluster name = some topic →
    topic.partitions < (config p).partitions → ∃ u ∈ r.underPartitioned, u.topic = name

/-- What the server `p` knows in each phase. -/
def Prepared (config : ℕ → TopicProvisionerConfig) (cluster : Cluster) (p : ℕ) : ProvisionPhase → Prop
  | .waiting | .listing => NotMade cluster p
  | .creating missing existing => NotMade cluster p ∧ Listed cluster missing existing
  | .describing missing existing => Listed cluster missing existing ∧ Made config cluster p missing
  | .done r => (Listed cluster r.created r.existing ∧ Made config cluster p r.created) ∧
      Compared config cluster p r
  | .skipped | .failed => True

section Others

variable {maker : Option ℕ} {missing existing : List String}

theorem NotMade.grows (h : NotMade cluster p) (hgrows : cluster.Grows new maker) (hmaker : maker ≠ some p) :
    NotMade new p := by
  intro name now hnow
  obtain ⟨topic, htopic, hcreator, -⟩ | hother := hgrows.before hmaker hnow
  · exact hcreator ▸ h name topic htopic
  · exact hother

theorem Listed.keeps (h : Listed cluster missing existing) (hkeeps : cluster.Keeps new) :
    Listed new missing existing where
  either := h.either
  there name hname := hkeeps.isSome (h.there name hname)

theorem Made.grows (h : Made config cluster p missing) (hgrows : cluster.Grows new maker)
    (hmaker : maker ≠ some p) : Made config new p missing where
  there name hname := hgrows.keeps.isSome (h.there name hname)
  own name now hnow hown := by
    obtain ⟨topic, htopic, hcreator, hle⟩ | hother := hgrows.before hmaker hnow
    · obtain ⟨hmem, hpartitions⟩ := h.own name topic htopic (hcreator ▸ hown)
      exact ⟨hmem, hpartitions.trans hle⟩
    · exact absurd hown hother

/-- An existing topic does not get fewer partitions than the server has seen. -/
theorem Compared.keeps {r : ProvisionReport} (h : Compared config cluster p r)
    (hlisted : Listed cluster r.created r.existing) (hkeeps : cluster.Keeps new) :
    Compared config new p r where
  warned := h.warned
  complete name hname now hnow hfew := by
    obtain ⟨topic, htopic⟩ := Option.isSome_iff_exists.mp (hlisted.there name hname)
    obtain ⟨now', hnow', -, -, hle⟩ := hkeeps name topic htopic
    obtain rfl := Option.some.inj (hnow.symm.trans hnow')
    exact h.complete name hname topic htopic (hle.trans_lt hfew)

/-- **The others** change nothing of what a server knows. -/
theorem Prepared.grows {phase : ProvisionPhase} (h : Prepared config cluster p phase)
    (hgrows : cluster.Grows new maker) (hmaker : maker ≠ some p) : Prepared config new p phase := by
  cases phase with
  | waiting => exact NotMade.grows h hgrows hmaker
  | listing => exact NotMade.grows h hgrows hmaker
  | creating missing existing => exact ⟨h.1.grows hgrows hmaker, h.2.keeps hgrows.keeps⟩
  | describing missing existing => exact ⟨h.1.keeps hgrows.keeps, h.2.grows hgrows hmaker⟩
  | done r =>
    exact ⟨⟨h.1.1.keeps hgrows.keeps, h.1.2.grows hgrows hmaker⟩, h.2.keeps h.1.1 hgrows.keeps⟩
  | skipped => trivial
  | failed => trivial

end Others

/-! ### One server's calls -/

theorem listed_afterListing (hadmin : admin.Answers) (cluster : Cluster) :
    Listed cluster (orderTopicValues.filter fun name => !(admin.listTopics cluster).contains name)
      (orderTopicValues.filter fun name => (admin.listTopics cluster).contains name) where
  either name hname := by
    simp only [List.mem_filter, hname, true_and, Bool.not_eq_true', Bool.not_eq_true]
  there name hname := by
    obtain ⟨hvalue, hlisted⟩ := List.mem_filter.mp hname
    rw [List.contains_iff_mem] at hlisted
    exact (hadmin.lists cluster name hvalue).mp hlisted

/-- Nothing was there, so there is nothing to warn of. -/
theorem compared_nil (created : List String) :
    Compared config cluster p { created := created, existing := [], underPartitioned := [] } where
  warned _ hu := absurd hu List.not_mem_nil
  complete _ hname := absurd hname List.not_mem_nil

theorem compared_findUnderPartitioned (hadmin : admin.Answers) (p : ℕ) {missing existing : List String}
    (hlisted : Listed cluster missing existing) :
    Compared config cluster p
      { created := missing, existing := existing,
        underPartitioned := findUnderPartitioned admin cluster existing (config p).partitions } where
  warned u hu := by
    obtain ⟨hu, hfew⟩ := List.mem_filter.mp hu
    obtain ⟨⟨name, partitions⟩, hmeta, rfl⟩ := List.mem_map.mp hu
    exact ⟨((hadmin.describes hlisted.there name partitions).mp hmeta).1, of_decide_eq_true hfew, rfl⟩
  complete name hname topic htopic hfew := by
    refine ⟨{ topic := name, actual := topic.partitions, expected := (config p).partitions }, ?_, rfl⟩
    have hmeta := (hadmin.describes hlisted.there name topic.partitions).mpr ⟨hname, topic, htopic, rfl⟩
    exact List.mem_filter.mpr ⟨List.mem_map.mpr ⟨_, hmeta, rfl⟩, decide_eq_true hfew⟩

theorem prepared_afterCreating {missing existing : List String} (hlisted : Listed cluster missing existing)
    (hmade : Made config cluster p missing) :
    Prepared config cluster p (afterCreating missing existing) := by
  unfold afterCreating
  split
  · rename_i hnil
    subst hnil
    exact ⟨⟨hlisted, hmade⟩, compared_nil missing⟩
  · exact ⟨hlisted, hmade⟩

/-- What the server itself has made is what it has asked for. -/
theorem made_createTopics (hadmin : admin.Answers) (h : NotMade cluster p) (missing : List String) :
    Made config (admin.createTopics cluster missing (wantedTopic config p)) p missing where
  there _ hname := hadmin.isSome_createTopics cluster _ hname
  own name topic htopic hown := by
    cases hname : cluster name with
    | some old =>
      rw [hadmin.leaves _ hname] at htopic
      obtain rfl := Option.some.inj htopic
      exact absurd hown (h name old hname)
    | none =>
      rw [hadmin.creates _ hname] at htopic
      split at htopic
      · rename_i hmem
        obtain rfl := Option.some.inj htopic
        exact ⟨hmem, le_rfl⟩
      · cases htopic

theorem made_nil (h : NotMade cluster p) : Made config cluster p [] where
  there _ hname := absurd hname List.not_mem_nil
  own name topic htopic hown := absurd hown (h name topic htopic)

/-- **A call** tells the server what it knows next. -/
theorem Turn.prepared (hadmin : admin.Answers) {phase next : ProvisionPhase}
    (hturn : Turn admin config p cluster phase next new)
    (h : Prepared config cluster p phase) : Prepared config new p next := by
  cases hturn with
  | skips => trivial
  | refuses => trivial
  | starts => exact h
  | lists =>
    have hlisted := listed_afterListing hadmin cluster
    simp only [afterListing]
    split
    · rename_i hnil
      rw [hnil] at hlisted ⊢
      exact prepared_afterCreating hlisted (made_nil h)
    · exact ⟨h, hlisted⟩
  | creates missing existing =>
    exact prepared_afterCreating (h.2.keeps (hadmin.grows_createTopics cluster _ missing).keeps)
      (made_createTopics hadmin h.1 missing)
  | describes missing existing => exact ⟨h, compared_findUnderPartitioned hadmin p h.1⟩
  | listingFails => trivial
  | creatingFails missing existing made => trivial
  | describingFails missing existing => trivial

/-- **Every server** knows it, whatever the others do. -/
theorem prepared_of_reaches (hadmin : admin.Answers)
    (hcluster : ∀ name topic, cluster name = some topic → topic.creator = none)
    (h : Reachable (step admin config) (initial cluster) s) (p : ℕ) :
    Prepared config s.cluster p (s.phase p) := by
  refine h.invariant (P := fun s => ∀ p, Prepared config s.cluster p (s.phase p)) ?_ ?_ p
  · intro p name topic htopic
    simp [hcluster name topic htopic]
  · intro s e t hs _ hstep p
    obtain ⟨q, hturn, hothers⟩ | ⟨hphase, hgrows⟩ := step_cases hstep
    · by_cases hpq : p = q
      · subst hpq
        exact hturn.prepared hadmin (hs p)
      · have hmaker : some q ≠ some p := fun h => hpq (Option.some.inj h).symm
        exact hothers p hpq ▸ (hs p).grows (hturn.grows hadmin) hmaker
    · exact hphase ▸ (hs p).grows hgrows nofun

/-! ### Behind a report -/

/-- A server that has found every topic, or has not looked yet. -/
def Late : ProvisionPhase → Prop
  | .waiting | .skipped | .listing | .failed => True
  | .creating _ _ => False
  | .describing missing _ => missing = []
  | .done r => r.created = []

theorem late_of_turn (hadmin : admin.Answers) {phase next : ProvisionPhase}
    (hturn : Turn admin config p cluster phase next new)
    (hall : ∀ name ∈ orderTopicValues, (cluster name).isSome) (h : Late phase) : Late next := by
  cases hturn with
  | lists =>
    have hnil : (orderTopicValues.filter fun name => !(admin.listTopics cluster).contains name) = [] := by
      refine List.filter_eq_nil_iff.mpr fun name hname => ?_
      have hlisted := (hadmin.lists cluster name hname).mpr (hall name hname)
      simp [hlisted]
    simp only [afterListing, hnil, if_true, afterCreating]
    split <;> rfl
  | creates missing existing => exact h.elim
  | describes missing existing => exact h
  | _ => trivial

/-- Nobody who looks when all topics are there creates one. -/
theorem late_of_reaches (hadmin : admin.Answers)
    (hall : ∀ name ∈ orderTopicValues, (s.cluster name).isSome) (hq : Late (s.phase q))
    (h : Reachable (step admin config) s t) : Late (t.phase q) := by
  refine (h.invariant (P := fun t => s.cluster.Keeps t.cluster ∧ Late (t.phase q)) ⟨.refl _, hq⟩ ?_).2
  rintro t e u ⟨hkeeps, hlate⟩ - hstep
  refine ⟨hkeeps.trans (keeps_of_step hadmin hstep), ?_⟩
  obtain ⟨p, hturn, hothers⟩ | ⟨hphase, -⟩ := step_cases hstep
  · by_cases hqp : q = p
    · subst hqp
      exact late_of_turn hadmin hturn (fun name hname => hkeeps.isSome (hall name hname)) hlate
    · exact hothers q hqp ▸ hlate
  · exact hphase ▸ hlate

/-- A report stays. -/
theorem done_of_reaches {r : ProvisionReport} (hp : s.phase p = .done r)
    (h : Reachable (step admin config) s t) : t.phase p = .done r := by
  refine h.invariant (P := fun t => t.phase p = .done r) hp ?_
  intro t e u hdone _ hstep
  obtain ⟨q, hturn, hothers⟩ | ⟨hphase, -⟩ := step_cases hstep
  · by_cases hpq : p = q
    · subst hpq
      rw [hdone] at hturn
      cases hturn
    · exact (hothers p hpq).trans hdone
  · exact hphase ▸ hdone

/-- **What a report is worth**: every order topic is there. One with too few partitions is missing from
the warnings exactly when the report says that the server has created it and somebody else has. From then
on the topics stay, and servers that have not looked yet create none. -/
theorem provision_report (hadmin : admin.Answers)
    (hcluster : ∀ name topic, cluster name = some topic → topic.creator = none)
    (h : Reachable (step admin config) (initial cluster) s) {r : ProvisionReport} (hp : s.phase p = .done r) :
    (∀ name ∈ orderTopicValues, ∃ topic, s.cluster name = some topic ∧
      (name ∈ r.created ↔ name ∉ r.existing) ∧
      (topic.partitions < (config p).partitions →
        ((∀ u ∈ r.underPartitioned, u.topic ≠ name) ↔ name ∈ r.created ∧ topic.creator ≠ some p))) ∧
    (∀ u ∈ r.underPartitioned, u.topic ∈ r.existing ∧ u.actual < u.expected ∧
      u.expected = (config p).partitions) ∧
    ∀ t, Reachable (step admin config) s t → t.phase p = .done r ∧ s.cluster.Keeps t.cluster ∧
      ∀ q, s.phase q = .waiting ∨ s.phase q = .listing → ∀ later, t.phase q = .done later →
        later.created = [] := by
  have hprepared := prepared_of_reaches hadmin hcluster h p
  rw [hp] at hprepared
  obtain ⟨⟨hlisted, hmade⟩, hcompared⟩ := hprepared
  have hall : ∀ name ∈ orderTopicValues, (s.cluster name).isSome := by
    intro name hname
    by_cases hexisting : name ∈ r.existing
    · exact hlisted.there name hexisting
    · exact hmade.there name ((hlisted.either name hname).mpr hexisting)
  refine ⟨?_, hcompared.warned, ?_⟩
  · intro name hname
    obtain ⟨topic, htopic⟩ := Option.isSome_iff_exists.mp (hall name hname)
    refine ⟨topic, htopic, hlisted.either name hname, fun hfew => ⟨fun hsilent => ?_, ?_⟩⟩
    · have hnew : name ∉ r.existing := by
        intro hexisting
        obtain ⟨u, hu, hname⟩ := hcompared.complete name hexisting topic htopic hfew
        exact hsilent u hu hname
      refine ⟨(hlisted.either name hname).mpr hnew, fun hown => ?_⟩
      exact absurd (hmade.own name topic htopic hown).2 (not_le.mpr hfew)
    · rintro ⟨hcreated, -⟩ u hu rfl
      exact (hlisted.either _ hname).mp hcreated (hcompared.warned u hu).1
  · intro t ht
    refine ⟨done_of_reaches hp ht, keeps_of_reaches hadmin ht, fun q hq later hlater => ?_⟩
    have hlate : Late (t.phase q) := by
      refine late_of_reaches hadmin hall ?_ ht
      rcases hq with hq | hq <;> rw [hq] <;> trivial
    rwa [hlater] at hlate

/-- A server that expects six partitions. -/
def sixPartitions : TopicProvisionerConfig where
  brokers := ["localhost:9092"]
  enabled := true
  partitions := 6
  replicationFactor := 1

/-- An `Admin` that lists the order topics. -/
def orderTopicAdmin : TopicAdmin where
  listTopics cluster := orderTopicValues.filter fun name => (cluster name).isSome
  createTopics cluster topics topic := fun name =>
    match cluster name with
    | some old => some old
    | none => if name ∈ topics then some topic else none
  fetchTopicMetadata cluster topics := topics.filterMap fun name =>
    (cluster name).map fun topic => (name, topic.partitions)

theorem answers_orderTopicAdmin : orderTopicAdmin.Answers where
  lists cluster name hname := by simp [orderTopicAdmin, hname]
  leaves topic h := by simp [orderTopicAdmin, h]
  creates topic h := by simp [orderTopicAdmin, h]
  describes _ name partitions := by
    simp only [orderTopicAdmin, List.mem_filterMap, Option.map_eq_some_iff, Prod.mk.injEq]
    constructor
    · rintro ⟨_, hmem, topic, htopic, rfl, rfl⟩
      exact ⟨hmem, topic, htopic, rfl⟩
    · rintro ⟨hmem, topic, htopic, rfl⟩
      exact ⟨name, hmem, topic, htopic, rfl, rfl⟩

/-- A client makes the broker create a topic between the two calls: it has one partition, and the report
has no warning. -/
theorem provision_report_of_autoCreate :
    ∃ s r, Reachable (step orderTopicAdmin fun _ => sixPartitions) (initial fun _ => none) s ∧
      s.phase 0 = .done r ∧ r.created = orderTopicValues ∧ r.underPartitioned = [] ∧
      ∃ topic, s.cluster "payments.approved" = some topic ∧ topic.partitions = 1 ∧ topic.creator ≠ some 0 := by
  obtain ⟨s, hs, hseen⟩ := exists_reaches_of_runEvents (s := initial fun _ => none)
    (step orderTopicAdmin fun _ => sixPartitions) (fun _ _ => True)
    (fun s => (s.phase 0, s.cluster "payments.approved"))
    [.onModuleInit 0, .listTopics 0, .otherCreates "payments.approved" 1 1, .createTopics 0]
    (.done { created := orderTopicValues, existing := [], underPartitioned := [] },
      some { partitions := 1, replicationFactor := 1, creator := none }) (by decide +kernel)
  obtain ⟨hdone, hpayments⟩ := Prod.mk.inj hseen
  have hreport := (provision_report answers_orderTopicAdmin (fun name topic h => by cases h) hs hdone).1
    "payments.approved" (by decide +kernel)
  obtain ⟨topic, htopic, -, hsilent⟩ := hreport
  obtain rfl := Option.some.inj (htopic.symm.trans hpayments)
  exact ⟨s, _, hs, hdone, rfl, rfl, _, htopic, rfl,
    ((hsilent (by decide)).mp fun u hu => absurd hu List.not_mem_nil).2⟩

end Provisioning

end BulkTraffic.Orders
