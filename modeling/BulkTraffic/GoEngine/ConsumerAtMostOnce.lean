import BulkTraffic.GoEngine.ConsumerAtLeastOnce

/-!
# Committing before the processing

A message before the committed offset was processed, is in flight, or was dropped by a crash or by a
commit that failed. It is processed at most once as long as the calls of `process` follow a
stored commit and the committed offset does not go back. `commit` gives no error either when the
context has ended, and then the message is processed without a stored commit.

* `Settled`: what becomes of the messages.
* `Once`: what lets a message be processed again.
* `processes_at_most_once`: both, over whole runs.
-/

namespace BulkTraffic.GoEngine.Consumer

open BulkTraffic.Lib BulkTraffic.Js

namespace Group

variable {config : Config} {log : TopicPartition → PartitionLog} {s u : Group}

/-! ### Committing before processing -/

/-- A message is in flight. -/
def FlyingAt (s : Group) (key : Key) : Prop :=
  ∃ (c : ℕ) (k : Member) (f : Flight), s.members[c]? = some k ∧ k.phase.flight? = some f ∧ f.key = key

/-- What becomes of a message that was fetched. -/
def Accounted (s : Group) (p : TopicPartition) (m : Message) : Prop :=
  s.Completed p m ∨ s.FlyingAt (p, m.offset) ∨ (p, m.offset) ∈ s.dropped

/-- Every message that was passed is accounted for. -/
structure Settled (log : TopicPartition → PartitionLog) (s : Group) : Prop where
  below : ∀ p n, s.committed p = some n → (log p).Upto (s.Accounted p) (s.origin p) n
  requests : ∀ p n, (p, n) ∈ s.requests → (log p).Upto (s.Accounted p) (s.origin p) (n + 1)
  read : ∀ p, (log p).Upto (s.Accounted p) (s.origin p) (s.position p)
  /-- A message in flight is one of its partition. -/
  flying : ∀ (c : ℕ) (k : Member) (f : Flight), s.members[c]? = some k →
    k.phase.flight? = some f → f.message ∈ (log f.partition).entries

theorem flight?_release (phase : Phase) (p : TopicPartition) :
    (phase.release p).flight? = phase.flight?.map (Flight.release p) := by
  cases phase <;> rfl

theorem release_same (f : Flight) (p : TopicPartition) :
    (f.release p).partition = f.partition ∧ (f.release p).message = f.message := by
  unfold Flight.release
  split <;> exact ⟨rfl, rfl⟩

theorem flight?_store (phase : Phase) (key : Key) :
    ∃ mark : Flight → Flight, (phase.store key).flight? = phase.flight?.map mark ∧
      ∀ f, (mark f).partition = f.partition ∧ (mark f).message = f.message := by
  cases phase with
  | committing f =>
    refine ⟨Flight.store key, rfl, fun f => ?_⟩
    unfold Flight.store
    split <;> exact ⟨rfl, rfl⟩
  | processing f => exact ⟨id, rfl, fun _ => ⟨rfl, rfl⟩⟩
  | fetching => exact ⟨id, rfl, fun _ => ⟨rfl, rfl⟩⟩
  | returned error => exact ⟨id, rfl, fun _ => ⟨rfl, rfl⟩⟩

/-- The messages in flight when only their marks change. -/
theorem FlyingAt.map {key : Key} (h : s.FlyingAt key) {g : Member → Member}
    (hmembers : u.members = s.members.map g)
    (hg : ∀ k : Member, ∃ mark : Flight → Flight, (g k).phase.flight? = k.phase.flight?.map mark ∧
      ∀ f, (mark f).partition = f.partition ∧ (mark f).message = f.message) : u.FlyingAt key := by
  obtain ⟨c, k, f, hk, hf, rfl⟩ := h
  obtain ⟨mark, hmark, hsame⟩ := hg k
  refine ⟨c, g k, mark f, ?_, by rw [hmark, hf, Option.map_some], ?_⟩
  · rw [hmembers, List.getElem?_map, hk, Option.map_some]
  · rw [Flight.key, (hsame f).1, (hsame f).2, Flight.key]

/-- A message is in flight at the member that goes on or at another one, which stays. -/
theorem FlyingAt.enter {key : Key} (h : s.FlyingAt key) {c : ℕ} {k k' : Member} {phase : Phase}
    (hk : s.members[c]? = some k) :
    (∃ f, k.phase.flight? = some f ∧ f.key = key) ∨ (s.enter c k' phase).FlyingAt key := by
  obtain ⟨d, k₀, f, hd, hf, hkey⟩ := h
  by_cases hdc : d = c
  · subst hdc
    rw [hk] at hd
    cases hd
    exact .inl ⟨f, hf, hkey⟩
  · refine .inr ⟨d, k₀, f, ?_, hf, hkey⟩
    rw [Group.enter, setMember, List.getElem?_set_ne (Ne.symm hdc)]
    exact hd

/-- A message stays accounted for when it stays in flight, is dropped or is processed. -/
theorem Accounted.mono {p : TopicPartition} {m : Message} (h : s.Accounted p m)
    (hsuccesses : s.successes ⊆ u.successes) (hfailures : s.failures ⊆ u.failures)
    (hdropped : s.dropped ⊆ u.dropped)
    (hflying : s.FlyingAt (p, m.offset) →
      u.Completed p m ∨ u.FlyingAt (p, m.offset) ∨ (p, m.offset) ∈ u.dropped) :
    u.Accounted p m := by
  rcases h with hdone | hfly | hdrop
  · exact .inl (hdone.mono hsuccesses hfailures)
  · exact hflying hfly
  · exact .inr (.inr (hdropped hdrop))

/-- A step after which as much is committed, asked for and read. -/
theorem Settled.keep (h : Settled log s)
    (hmono : ∀ p, ∀ m ∈ (log p).entries, s.Accounted p m → u.Accounted p m)
    (hcommitted : u.committed = s.committed) (hrequests : u.requests = s.requests)
    (horigin : u.origin = s.origin) (hposition : u.position = s.position)
    (hflying : ∀ (c : ℕ) (k : Member) (f : Flight), u.members[c]? = some k →
      k.phase.flight? = some f → f.message ∈ (log f.partition).entries) : Settled log u := by
  refine ⟨fun p n hp => ?_, fun p n hp => ?_, fun p => ?_, hflying⟩
  · rw [hcommitted] at hp
    rw [horigin]
    exact (h.below p n hp).imp (hmono p)
  · rw [hrequests] at hp
    rw [horigin]
    exact (h.requests p n hp).imp (hmono p)
  · rw [horigin, hposition]
    exact (h.read p).imp (hmono p)

/-- The messages in flight of members whose marks change. -/
theorem mem_of_map {g : Member → Member} (hg : ∀ k : Member, ∃ mark : Flight → Flight,
      (g k).phase.flight? = k.phase.flight?.map mark ∧
      ∀ f, (mark f).partition = f.partition ∧ (mark f).message = f.message)
    (h : ∀ (c : ℕ) (k : Member) (f : Flight), s.members[c]? = some k →
      k.phase.flight? = some f → f.message ∈ (log f.partition).entries)
    {c : ℕ} {k : Member} {f : Flight} (hk : (s.members.map g)[c]? = some k)
    (hf : k.phase.flight? = some f) : f.message ∈ (log f.partition).entries := by
  obtain ⟨k₀, hk₀, rfl⟩ := members_map hk
  obtain ⟨mark, hmark, hsame⟩ := hg k₀
  rw [hmark] at hf
  obtain ⟨f₀, hf₀, rfl⟩ := Option.map_eq_some_iff.mp hf
  rw [(hsame f₀).1, (hsame f₀).2]
  exact h c k₀ f₀ hk₀ hf₀

/-- Before the processing, whatever is in flight is dropped by a crash. -/
theorem mem_drop (hmode : config.commitMode = .beforeProcess) {phase : Phase} {f : Flight}
    (h : phase.flight? = some f) : f.key ∈ phase.drop config := by
  cases phase with
  | committing g =>
    cases h
    simp only [Phase.drop, hmode, List.mem_singleton]
  | processing g =>
    cases h
    exact List.mem_singleton_self _
  | fetching => cases h
  | returned error => cases h

theorem Settled.step (hmode : config.commitMode = .beforeProcess) (h : Settled log s)
    (hmoves : s.Moves config log u) : Settled log u := by
  cases hmoves with
  | fetch c k p m hk hphase howner hmax hnext =>
    simp only [startHandle, hmode]
    set f : Flight := { partition := p, message := m }
    set t := (s.advance p m).startCommit c k f
    have hmono : ∀ q a, s.Accounted q a → t.Accounted q a := by
      intro q a hacc
      refine hacc.mono (fun _ h => h) (fun _ h => h) (fun _ h => h) fun hfly => .inr (.inl ?_)
      rcases FlyingAt.enter hfly hk with ⟨g, hg, -⟩ | hfly
      · rw [hphase] at hg
        cases hg
      · exact hfly
    have hm : t.Accounted p m := .inr (.inl ⟨c, _, _, members_enter_self hk _, rfl, rfl⟩)
    have hread := ((h.read p).imp fun a _ => hmono p a).next hnext
    refine ⟨fun q n hq => (h.below q n hq).imp fun a _ => hmono q a, fun q n hq => ?_, fun q => ?_,
      fun d k' g hk' hg => ?_⟩
    · rcases List.mem_append.mp hq with hq | hq
      · exact (h.requests q n hq).imp fun a _ => hmono q a
      · cases List.mem_singleton.mp hq
        exact hread.snoc hnext.mem hm
    · by_cases hqp : q = p
      · subst hqp
        show (log q).Upto _ _ ((s.advance q m).position q)
        rw [position_advance_self]
        exact hread.snoc hnext.mem hm
      · show (log q).Upto _ _ ((s.advance p m).position q)
        rw [position_advance_of_ne hqp]
        exact (h.read q).imp fun a _ => hmono q a
    · rcases members_enter hk' with ⟨rfl, rfl⟩ | ⟨-, hk'⟩
      · cases hg
        exact hnext.mem
      · exact h.flying d k' g hk' hg
  | leave c k error hk hphase =>
    refine h.keep (fun p m hm hacc => hacc.mono (fun _ h => h) (fun _ h => h) (fun _ h => h)
      fun hfly => .inr (.inl ?_)) rfl rfl rfl rfl fun d k' f hk' hf => ?_
    · refine (FlyingAt.enter hfly hk).resolve_left ?_
      rintro ⟨f, hf, -⟩
      rw [hphase] at hf
      cases hf
    · rcases members_enter hk' with ⟨rfl, rfl⟩ | ⟨-, hk'⟩
      · cases hf
      · exact h.flying d k' f hk' hf
  | process c k f hk hphase =>
    obtain ⟨successes, failures, k₁, heq, hsuccesses, hfailures, -, hdone⟩ :=
      exists_processReturns config s c k f
    rw [heq]
    simp only [afterProcess, hmode]
    have hmem : f.message ∈ (log f.partition).entries := h.flying c k f hk (by rw [hphase]; rfl)
    refine h.keep (fun p m hm hacc => hacc.mono hsuccesses hfailures (fun _ h => h) fun hfly => ?_)
      rfl rfl rfl rfl fun d k' g hk' hg => ?_
    · rcases FlyingAt.enter hfly hk with ⟨g, hg, hkey⟩ | hfly
      · rw [hphase] at hg
        cases hg
        obtain ⟨rfl, hoffset⟩ := Prod.mk.inj hkey
        exact .inl (OffsetLog.eq_of_offset hmem hm hoffset ▸ hdone)
      · exact .inr (.inl hfly)
    · rcases members_enter hk' with ⟨rfl, rfl⟩ | ⟨-, hk'⟩
      · cases hg
      · exact h.flying d k' g hk' hg
  | store p offset hmem =>
    have hmono : ∀ q a, s.Accounted q a → (s.storeCommit p offset).Accounted q a := fun q a hacc =>
      hacc.mono (fun _ h => h) (fun _ h => h) (fun _ h => h) fun hfly =>
        .inr (.inl (hfly.map rfl fun k => flight?_store k.phase (p, offset)))
    refine ⟨fun q n hq => ?_, fun q n hq => (h.requests q n hq).imp fun a _ => hmono q a,
      fun q => (h.read q).imp fun a _ => hmono q a,
      fun d k' f hk' hf => mem_of_map (fun k => flight?_store k.phase (p, offset)) h.flying hk' hf⟩
    by_cases hqp : q = p
    · subst hqp
      rw [committed_storeCommit_self] at hq
      obtain rfl := Option.some.inj hq
      exact (h.requests q offset hmem).imp fun a _ => hmono q a
    · rw [committed_storeCommit_of_ne hqp] at hq
      exact (h.below q n hq).imp fun a _ => hmono q a
  | commit c k f hk hphase hcond =>
    simp only [afterCommit, hmode]
    refine h.keep (fun p m hm hacc => hacc.mono (fun _ h => h) (fun _ h => h) (fun _ h => h)
      fun hfly => .inr (.inl ?_)) rfl rfl rfl rfl fun d k' g hk' hg => ?_
    · rcases FlyingAt.enter hfly hk with ⟨g, hg, hkey⟩ | hfly
      · rw [hphase] at hg
        cases hg
        exact ⟨c, _, f, members_enter_self hk _, rfl, hkey⟩
      · exact hfly
    · rcases members_enter hk' with ⟨rfl, rfl⟩ | ⟨-, hk'⟩
      · cases hg
        exact h.flying d k f hk (by rw [hphase]; rfl)
      · exact h.flying d k' g hk' hg
  | fail c k f error hk hphase =>
    refine h.keep (fun p m hm hacc => hacc.mono (fun _ h => h) (fun _ h => h)
      (List.subset_append_left _ _) fun hfly => .inr ?_) rfl rfl rfl rfl fun d k' g hk' hg => ?_
    · rcases FlyingAt.enter hfly hk with ⟨g, hg, hkey⟩ | hfly
      · rw [hphase] at hg
        cases hg
        rw [← hkey]
        exact .inr (List.mem_append_right _ (mem_drop hmode (by rw [hphase]; rfl)))
      · exact .inl hfly
    · rcases members_enter hk' with ⟨rfl, rfl⟩ | ⟨-, hk'⟩
      · cases hg
      · exact h.flying d k' g hk' hg
  | assign p c latest horigin =>
    have hle := le_origin_assign horigin c
    have hmark : ∀ k : Member, ∃ mark : Flight → Flight,
        (k.phase.release p).flight? = k.phase.flight?.map mark ∧
        ∀ f, (mark f).partition = f.partition ∧ (mark f).message = f.message := fun k =>
      ⟨Flight.release p, flight?_release k.phase p, fun f => release_same f p⟩
    have hmono : ∀ q a, s.Accounted q a → (s.assign config p c latest).Accounted q a :=
      fun q a hacc => hacc.mono (fun _ h => h) (fun _ h => h) (fun _ h => h) fun hfly =>
        .inr (.inl (hfly.map rfl hmark))
    refine ⟨fun q n hq => ((h.below q n hq).imp fun a _ => hmono q a).origin_le (hle q),
      fun q n hq => ((h.requests q n hq).imp fun a _ => hmono q a).origin_le (hle q), fun q => ?_,
      fun d k' f hk' hf => mem_of_map hmark h.flying hk' hf⟩
    by_cases hqp : q = p
    · subst hqp
      rw [position_assign_self]
      cases hcommitted : s.committed q with
      | none =>
        rw [origin_assign_self hcommitted]
        exact (log q).upto_origin _ _
      | some n => exact ((h.below q n hcommitted).imp fun a _ => hmono q a).origin_le (hle q)
    · rw [position_assign_of_ne hqp]
      exact ((h.read q).imp fun a _ => hmono q a).origin_le (hle q)
  | signal => exact ⟨h.below, h.requests, h.read, h.flying⟩
  | restart instances =>
    refine h.keep (fun p m hm hacc => hacc.mono (fun _ h => h) (fun _ h => h)
      (List.subset_append_left _ _) fun hfly => .inr (.inr ?_)) rfl rfl rfl rfl
      fun d k' g hk' hg => ?_
    · obtain ⟨c, k, f, hk, hf, hkey⟩ := hfly
      rw [← hkey]
      exact List.mem_append_right _
        (List.mem_flatMap.mpr ⟨k, List.mem_of_getElem? hk, mem_drop hmode hf⟩)
    · obtain rfl := eq_of_members_replicate hk'
      cases hg

/-! ### Processing at most once -/

/-- A consumer waits for a commit, and the partition was not given away. -/
def WaitingAt (s : Group) (c : ℕ) (f : Flight) : Prop :=
  ∃ k : Member, s.members[c]? = some k ∧ k.phase = .committing f ∧ f.released = false

/-- What lets a message be processed again. -/
def lateCauses (s : Group) (key : Key) : ℕ := s.late.count key + s.rewoundOver key

/-- How often a message is processed. -/
structure Once (s : Group) : Prop where
  again : ∀ key, s.starts key ≤ 1 + s.lateCauses key
  /-- What is still to be read. -/
  ahead : ∀ p n, s.position p ≤ n → s.starts (p, n) ≤ s.lateCauses (p, n)
  /-- What would be read again after a restart. -/
  above : ∀ p n, s.Uncovered p n → s.starts (p, n) ≤ s.lateCauses (p, n)
  /-- What is to be processed. -/
  waiting : ∀ c f, s.WaitingAt c f → s.starts f.key ≤ s.lateCauses f.key ∧
    (f.stored = true → s.Uncovered f.partition f.message.offset →
      s.starts f.key + 1 ≤ s.lateCauses f.key)
  /-- The partition of a message in flight is read by the consumer, or was given away. -/
  owns : ∀ (c : ℕ) (k : Member) (f : Flight), s.members[c]? = some k → k.phase.flight? = some f →
    f.released = false → s.owner f.partition = some c ∧ f.message.offset < s.position f.partition

theorem WaitingAt.owned {c : ℕ} {f : Flight} (hw : s.WaitingAt c f) (h : Once s) :
    s.owner f.partition = some c ∧ f.message.offset < s.position f.partition := by
  obtain ⟨k, hk, hphase, hreleased⟩ := hw
  exact h.owns c k f hk (by rw [hphase]; rfl) hreleased

/-- Who waits when a member goes on. -/
theorem WaitingAt.of_enter {c d : ℕ} {k : Member} {phase : Phase} {f : Flight}
    (h : (s.enter c k phase).WaitingAt d f) :
    d = c ∧ phase = .committing f ∧ f.released = false ∨ d ≠ c ∧ s.WaitingAt d f := by
  obtain ⟨k', hk', hphase, hreleased⟩ := h
  rcases members_enter hk' with ⟨rfl, rfl⟩ | ⟨hne, hk'⟩
  · exact .inl ⟨rfl, hphase, hreleased⟩
  · exact .inr ⟨hne, k', hk', hphase, hreleased⟩

/-- A step that calls `process` for no message and stores no commit. -/
theorem Once.quiet (h : Once s) (hstarted : u.started = s.started) (hlate : u.late = s.late)
    (hrewinds : u.rewinds = s.rewinds) (hcommitted : u.committed = s.committed)
    (hwaiting : ∀ c f, u.WaitingAt c f → s.WaitingAt c f)
    (hposition : ∀ p n, u.position p ≤ n → s.position p ≤ n ∨ s.Uncovered p n)
    (howns : ∀ (c : ℕ) (k : Member) (f : Flight), u.members[c]? = some k →
      k.phase.flight? = some f → f.released = false →
      u.owner f.partition = some c ∧ f.message.offset < u.position f.partition) : Once u := by
  have hstarts : ∀ key, u.starts key = s.starts key := fun key => by rw [starts, hstarted, starts]
  have hcauses : ∀ key, u.lateCauses key = s.lateCauses key := fun key => by
    rw [lateCauses, rewoundOver, hlate, hrewinds, lateCauses, rewoundOver]
  have hunc : ∀ p n, u.Uncovered p n → s.Uncovered p n := fun p n hn => by
    rwa [Uncovered, hcommitted] at hn
  refine ⟨fun key => ?_, fun p n hle => ?_, fun p n hn => ?_, fun c f hw => ?_, howns⟩
  · rw [hstarts, hcauses]
    exact h.again key
  · rw [hstarts, hcauses]
    exact (hposition p n hle).elim (h.ahead p n) (h.above p n)
  · rw [hstarts, hcauses]
    exact h.above p n (hunc p n hn)
  · obtain ⟨hle, hstored⟩ := h.waiting c f (hwaiting c f hw)
    rw [hstarts, hcauses]
    exact ⟨hle, fun hs hn => hstored hs (hunc _ _ hn)⟩

/-- `commit` returned no error, and the message is processed. -/
theorem Once.commit (h : Once s) {c : ℕ} {k : Member} {f : Flight} (hk : s.members[c]? = some k)
    (hphase : k.phase = .committing f) : Once ((s.abandon f).startProcessing c k f) := by
  set u := (s.abandon f).startProcessing c k f
  have hstarts : ∀ key, u.starts key = s.starts key + if f.key = key then 1 else 0 :=
    starts_startProcessing (s.abandon f) c k f
  have hwaiting : ∀ d g, u.WaitingAt d g → d ≠ c ∧ s.WaitingAt d g := by
    intro d g hw
    rcases WaitingAt.of_enter hw with ⟨-, hphase', -⟩ | hw
    · cases hphase'
    · exact hw
  have howns : ∀ (d : ℕ) (k' : Member) (g : Flight), u.members[d]? = some k' →
      k'.phase.flight? = some g → g.released = false →
      u.owner g.partition = some d ∧ g.message.offset < u.position g.partition := by
    intro d k' g hk' hg hreleased
    rcases members_enter hk' with ⟨rfl, rfl⟩ | ⟨-, hk'⟩
    · cases hg
      exact h.owns d k f hk (by rw [hphase]; rfl) hreleased
    · exact h.owns d k' g hk' hg hreleased
  by_cases hlate : f.released = true ∨ f.stored = false
  · -- the call is counted as late
    have hcauses : ∀ key, u.lateCauses key = s.lateCauses key + if f.key = key then 1 else 0 := by
      intro key
      have hcond : (f.released || !f.stored) = true := by
        rcases hlate with hr | hs
        · rw [hr, Bool.true_or]
        · rw [hs, Bool.not_false, Bool.or_true]
      show (s.late ++ if f.released || !f.stored then [f.key] else []).count key + _ = _
      rw [if_pos hcond, List.count_append, List.count_singleton]
      simp only [beq_iff_eq, lateCauses]
      exact Nat.add_right_comm _ _ _
    refine ⟨fun key => ?_, fun p n hle => ?_, fun p n hn => ?_, fun d g hw => ?_, howns⟩
    · have hold := h.again key
      rw [hstarts, hcauses]
      omega
    · have hold := h.ahead p n hle
      rw [hstarts, hcauses]
      omega
    · have hold := h.above p n hn
      rw [hstarts, hcauses]
      omega
    · obtain ⟨hle, hstored⟩ := h.waiting d g (hwaiting d g hw).2
      rw [hstarts, hcauses]
      refine ⟨by omega, fun hs hn => ?_⟩
      have hold := hstored hs hn
      omega
  · -- the partition is the consumer's, and a commit was stored
    have hreleased : f.released = false := by simpa using fun hr => hlate (.inl hr)
    have hstored : f.stored = true := by simpa using fun hs => hlate (.inr hs)
    have hcauses : ∀ key, u.lateCauses key = s.lateCauses key := by
      intro key
      show (s.late ++ if f.released || !f.stored then [f.key] else []).count key + _ = _
      rw [hreleased, hstored, if_neg (by decide), List.append_nil]
      rfl
    have hw : s.WaitingAt c f := ⟨k, hk, hphase, hreleased⟩
    obtain ⟨howner, hposition⟩ := hw.owned h
    obtain ⟨hle, hlt⟩ := h.waiting c f hw
    have hother : ∀ d g, u.WaitingAt d g → f.key ≠ g.key := by
      intro d g hg hkey
      obtain ⟨hdc, hg⟩ := hwaiting d g hg
      have howner' := (hg.owned h).1
      rw [← (Prod.mk.inj hkey).1, howner] at howner'
      exact hdc (Option.some.inj howner').symm
    refine ⟨fun key => ?_, fun p n hle' => ?_, fun p n hn => ?_, fun d g hg => ?_, howns⟩
    · rw [hstarts, hcauses]
      split
      · rename_i hkey
        subst hkey
        omega
      · exact h.again key
    · rw [hstarts, hcauses, if_neg]
      · exact h.ahead p n hle'
      · intro hkey
        obtain ⟨rfl, rfl⟩ := Prod.mk.inj hkey
        exact absurd hposition (Nat.not_lt.mpr hle')
    · rw [hstarts, hcauses]
      split
      · rename_i hkey
        obtain ⟨rfl, rfl⟩ := Prod.mk.inj hkey
        exact hlt hstored hn
      · exact h.above p n hn
    · rw [hstarts, hcauses, if_neg (hother d g hg)]
      exact h.waiting d g (hwaiting d g hg).2

/-- A message in flight at a member that goes on without one. -/
theorem Once.owns_enter (h : Once s) {t : Group} (hmembers : t.members = s.members)
    (howner : t.owner = s.owner) (hposition : t.position = s.position) {c d : ℕ} {k k' : Member}
    {phase : Phase} {f : Flight} (hphase : phase.flight? = none)
    (hk : (t.enter c k phase).members[d]? = some k') (hf : k'.phase.flight? = some f)
    (hreleased : f.released = false) :
    (t.enter c k phase).owner f.partition = some d ∧
      f.message.offset < (t.enter c k phase).position f.partition := by
  rcases members_enter hk with ⟨rfl, rfl⟩ | ⟨-, hk⟩
  · rw [hphase] at hf
    cases hf
  · rw [hmembers] at hk
    show t.owner f.partition = some d ∧ f.message.offset < t.position f.partition
    rw [howner, hposition]
    exact h.owns d k' f hk hf hreleased

/-- A message whose partition was not given away is none of the partition given now. -/
theorem of_release {f : Flight} {p : TopicPartition} (h : (f.release p).released = false) :
    f.release p = f ∧ f.partition ≠ p := by
  unfold Flight.release at h ⊢
  split
  · rename_i hp
    rw [if_pos hp] at h
    cases h
  · rename_i hp
    exact ⟨rfl, hp⟩

theorem store_same (f : Flight) (key : Key) :
    (f.store key).key = f.key ∧ (f.store key).released = f.released := by
  unfold Flight.store
  split <;> exact ⟨rfl, rfl⟩

/-- Who waits when a commit is stored. -/
theorem WaitingAt.of_store {p : TopicPartition} {offset d : ℕ} {g : Flight}
    (h : (s.storeCommit p offset).WaitingAt d g) :
    ∃ f, s.WaitingAt d f ∧ g = f.store (p, offset) := by
  obtain ⟨k', hk', hphase, hreleased⟩ := h
  obtain ⟨k, hk, rfl⟩ := members_map hk'
  cases hk₀ : k.phase with
  | committing f =>
    simp only [hk₀, Phase.store, Phase.committing.injEq] at hphase
    subst hphase
    rw [(store_same f _).2] at hreleased
    exact ⟨f, ⟨k, hk, hk₀, hreleased⟩, rfl⟩
  | fetching => simp only [hk₀, Phase.store, reduceCtorEq] at hphase
  | processing f => simp only [hk₀, Phase.store, reduceCtorEq] at hphase
  | returned error => simp only [hk₀, Phase.store, reduceCtorEq] at hphase

theorem Once.store (h : Once s) (p : TopicPartition) (offset : ℕ) :
    Once (s.storeCommit p offset) := by
  have hcauses : ∀ key, s.lateCauses key ≤ (s.storeCommit p offset).lateCauses key := fun key =>
    Nat.add_le_add_left (rewoundOver_le_storeCommit s p offset key) _
  -- a commit that uncovers a message is counted
  have hback : ∀ q n, ¬ s.Uncovered q n → (s.storeCommit p offset).Uncovered q n →
      s.lateCauses (q, n) + 1 ≤ (s.storeCommit p offset).lateCauses (q, n) := by
    intro q n hold hnew
    have hqp : q = p := by
      by_contra hqp
      refine hold fun c hc => hnew c ?_
      rw [committed_storeCommit_of_ne hqp, hc]
    subst hqp
    have hlt : offset < n := hnew _ (committed_storeCommit_self q offset)
    exact Nat.add_le_add_left (rewoundOver_storeCommit hlt hold) (s.late.count (q, n))
  refine ⟨fun key => (h.again key).trans (Nat.add_le_add_left (hcauses key) 1),
    fun q n hle => (h.ahead q n hle).trans (hcauses _), fun q n hn => ?_, fun d g hw => ?_,
    fun d k' g hk' hg hreleased => ?_⟩
  · by_cases hold : s.Uncovered q n
    · exact (h.above q n hold).trans (hcauses _)
    · have hone := hback q n hold hn
      have hagain := h.again (q, n)
      show s.starts (q, n) ≤ _
      omega
  · obtain ⟨f, hf, rfl⟩ := WaitingAt.of_store hw
    obtain ⟨hle, hstored⟩ := h.waiting d f hf
    rw [(store_same f _).1]
    refine ⟨hle.trans (hcauses _), fun hs hn => ?_⟩
    by_cases hkey : f.key = (p, offset)
    · have hnew : f.store (p, offset) = { f with stored := true } := if_pos hkey
      rw [hnew] at hn
      obtain ⟨rfl, rfl⟩ := Prod.mk.inj hkey
      exact absurd (hn _ (committed_storeCommit_self _ _)) (Nat.not_succ_le_self _)
    · have hsame : f.store (p, offset) = f := if_neg hkey
      rw [hsame] at hs hn
      by_cases hold : s.Uncovered f.partition f.message.offset
      · exact (hstored hs hold).trans (hcauses _)
      · have hone := hback f.partition f.message.offset hold hn
        show s.starts f.key + 1 ≤ _
        unfold Flight.key at hle ⊢
        omega
  · obtain ⟨k, hk, rfl⟩ := members_map hk'
    cases hk₀ : k.phase with
    | committing f =>
      simp only [hk₀, Phase.store, Phase.flight?, Option.some.injEq] at hg
      subst hg
      rw [(store_same f _).2] at hreleased
      obtain ⟨hpartition, hoffset⟩ := Prod.mk.inj (store_same f (p, offset)).1
      rw [hpartition, hoffset]
      exact h.owns d k f hk (by rw [hk₀]; rfl) hreleased
    | processing f =>
      simp only [hk₀, Phase.store, Phase.flight?, Option.some.injEq] at hg
      subst hg
      exact h.owns d k f hk (by rw [hk₀]; rfl) hreleased
    | fetching => simp only [hk₀, Phase.store, Phase.flight?, reduceCtorEq] at hg
    | returned error => simp only [hk₀, Phase.store, Phase.flight?, reduceCtorEq] at hg

theorem Once.step (hmode : config.commitMode = .beforeProcess) (h : Once s)
    (hmoves : s.Moves config log u) : Once u := by
  cases hmoves with
  | fetch c k p m hk hphase howner hmax hnext =>
    simp only [startHandle, hmode]
    have hahead := h.ahead p m.offset hnext.le
    refine ⟨h.again, fun q n hle => ?_, h.above, fun d g hw => ?_, fun d k' g hk' hg hreleased => ?_⟩
    · refine h.ahead q n ?_
      by_cases hqp : q = p
      · subst hqp
        have hle : (s.advance q m).position q ≤ n := hle
        rw [position_advance_self] at hle
        exact Nat.le_trans hnext.le (Nat.le_of_succ_le hle)
      · exact (position_advance_of_ne hqp m).symm.le.trans hle
    · rcases WaitingAt.of_enter hw with ⟨rfl, hg, -⟩ | ⟨-, hw⟩
      · cases hg
        exact ⟨hahead, fun hs => by cases hs⟩
      · exact h.waiting d g hw
    · rcases members_enter hk' with ⟨rfl, rfl⟩ | ⟨hne, hk'⟩
      · cases hg
        refine ⟨howner, ?_⟩
        show m.offset < (s.advance p m).position p
        rw [position_advance_self]
        exact Nat.lt_succ_self _
      · obtain ⟨howner', hlt⟩ := h.owns d k' g hk' hg hreleased
        refine ⟨howner', ?_⟩
        have hqp : g.partition ≠ p := by
          rintro rfl
          exact hne (Option.some.inj (howner'.symm.trans howner))
        show g.message.offset < (s.advance p m).position g.partition
        rwa [position_advance_of_ne hqp]
  | leave c k error hk hphase =>
    refine h.quiet rfl rfl rfl rfl (fun d f hw => ?_) (fun p n hle => .inl hle)
      fun d k' f hk' hf hr => h.owns_enter rfl rfl rfl rfl hk' hf hr
    rcases WaitingAt.of_enter hw with ⟨-, hf, -⟩ | ⟨-, hw⟩
    · cases hf
    · exact hw
  | process c k f hk hphase =>
    obtain ⟨successes, failures, k₁, heq, -, -, -, -⟩ := exists_processReturns config s c k f
    rw [heq]
    simp only [afterProcess, hmode]
    refine h.quiet rfl rfl rfl rfl (fun d g hw => ?_) (fun p n hle => .inl hle)
      fun d k' g hk' hg hr => h.owns_enter (t := { s with
        successes := successes, failures := failures }) rfl rfl rfl rfl hk' hg hr
    rcases WaitingAt.of_enter hw with ⟨-, hg, -⟩ | ⟨-, hw⟩
    · cases hg
    · exact hw
  | store p offset hmem => exact h.store p offset
  | commit c k f hk hphase hcond =>
    simp only [afterCommit, hmode]
    exact h.commit hk hphase
  | fail c k f error hk hphase =>
    refine h.quiet rfl rfl rfl rfl (fun d g hw => ?_) (fun p n hle => .inl hle)
      fun d k' g hk' hg hr => h.owns_enter (t := { s.abandon f with dropped := _ }) rfl rfl rfl rfl
        hk' hg hr
    rcases WaitingAt.of_enter hw with ⟨-, hg, -⟩ | ⟨-, hw⟩
    · cases hg
    · exact hw
  | assign p c latest horigin =>
    refine h.quiet rfl rfl rfl rfl (fun d g hw => ?_) (fun q n hle => ?_)
      fun d k' g hk' hg hreleased => ?_
    · obtain ⟨k', hk', hphase, hreleased⟩ := hw
      obtain ⟨k, hk, rfl⟩ := members_map hk'
      cases hk₀ : k.phase with
      | committing f =>
        simp only [hk₀, Phase.release, Phase.map, Phase.committing.injEq] at hphase
        subst hphase
        obtain ⟨hsame, -⟩ := of_release hreleased
        rw [hsame] at hreleased ⊢
        exact ⟨k, hk, hk₀, hreleased⟩
      | fetching => simp only [hk₀, Phase.release, Phase.map, reduceCtorEq] at hphase
      | processing f => simp only [hk₀, Phase.release, Phase.map, reduceCtorEq] at hphase
      | returned error => simp only [hk₀, Phase.release, Phase.map, reduceCtorEq] at hphase
    · by_cases hqp : q = p
      · subst hqp
        rw [position_assign_self] at hle
        refine .inr fun d hd => ?_
        rwa [hd, Option.getD_some] at hle
      · rw [position_assign_of_ne hqp] at hle
        exact .inl hle
    · obtain ⟨k, hk, rfl⟩ := members_map hk'
      rw [flight?_release] at hg
      obtain ⟨f, hf, rfl⟩ := Option.map_eq_some_iff.mp hg
      obtain ⟨hsame, hne⟩ := of_release hreleased
      rw [hsame] at hreleased ⊢
      rw [owner_assign_of_ne hne, position_assign_of_ne hne]
      exact h.owns d k f hk hf hreleased
  | signal => exact ⟨h.again, h.ahead, h.above, h.waiting, h.owns⟩
  | restart instances =>
    refine h.quiet rfl rfl rfl rfl (fun d f hw => ?_) (fun p n hle => .inl hle)
      fun d k f hk hf => ?_
    · obtain ⟨k, hk, hphase, -⟩ := hw
      obtain rfl := eq_of_members_replicate hk
      cases hphase
    · obtain rfl := eq_of_members_replicate hk
      cases hf

/-! ### Whole runs -/

theorem settled_initial (log : TopicPartition → PartitionLog) (instances : ℕ) :
    Settled log (initial instances) := by
  refine ⟨fun p n hp => (nomatch hp), fun p n hp => (nomatch hp),
    fun p => (log p).upto_origin _ _, fun c k f hk hf => ?_⟩
  obtain rfl := eq_of_members_replicate hk
  cases hf

theorem once_initial (instances : ℕ) : Once (initial instances) := by
  refine ⟨fun _ => Nat.zero_le _, fun _ _ _ => Nat.zero_le _, fun _ _ _ => Nat.zero_le _,
    fun c f hw => ?_, fun c k f hk hf => ?_⟩
  · obtain ⟨k, hk, hphase, -⟩ := hw
    obtain rfl := eq_of_members_replicate hk
    cases hphase
  · obtain rfl := eq_of_members_replicate hk
    cases hf

/-- **Committing before the processing**: `process` is called once for a message, and once more only
for each call without a stored commit or after the partition was given away, and for each time
the committed offset went back over it. Every message before the committed offset, from the first one
or from where the reading began, was processed, is in flight, or went out of flight before that. -/
theorem processes_at_most_once (hmode : config.commitMode = .beforeProcess) {instances : ℕ}
    (h : Reachable (step config log) (initial instances) s) :
    (∀ key, s.starts key ≤ 1 + s.late.count key + s.rewoundOver key) ∧
    (∀ p n, s.committed p = some n → ∀ m ∈ (log p).entries, m.offset < n →
      config.fromBeginning = true ∨ s.origin p ≤ m.offset →
      s.Completed p m ∨ s.FlyingAt (p, m.offset) ∨ (p, m.offset) ∈ s.dropped) ∧
    ∀ k ∈ s.members, 0 < config.maxMessages → (k.processed : ℤ) ≤ config.maxMessages.toInt := by
  have honce : Once s := h.invariant (once_initial instances)
    fun _ _ _ hs _ hu => hs.step hmode (moves_of_step hu)
  have hsettled : Settled log s := h.invariant (settled_initial log instances)
    fun _ _ _ hs _ hu => hs.step hmode (moves_of_step hu)
  refine ⟨fun key => ?_,
    fun p n hp m hm hlt hfrom => hsettled.below p n hp m hm (origin_le h hfrom) hlt,
    fun k hk => (bounded h k hk).le⟩
  have hagain := honce.again key
  rw [lateCauses] at hagain
  omega

/-- A signal while the consumer waits for the commit: the message is processed without a stored
commit, and again after a restart. -/
theorem processes_at_most_once_of_signal :
    ∃ s, Reachable (step (twoConsumers .beforeProcess) twoMessages) (initial 1) s ∧
      s.outcome = (some 1, [(onePartition, 0), (onePartition, 0)], [(0, 0)]) ∧
      s.starts (onePartition, 0) ≤
        1 + s.late.count (onePartition, 0) + s.rewoundOver (onePartition, 0) := by
  obtain ⟨s, hs, hseen⟩ := exists_reaches_of_runEvents
    (step (twoConsumers .beforeProcess) twoMessages) (fun _ _ => True) outcome (s := initial 1)
    [.assigned onePartition 0 0, .fetched 0 onePartition, .signal,
      .commitReturns 0 (some .canceled), .processReturns 0, .fetchFails 0 .canceled, .restart 1,
      .assigned onePartition 0 0, .fetched 0 onePartition, .commitStored onePartition 0,
      .commitReturns 0 none]
    (some 1, [(onePartition, 0), (onePartition, 0)], [(0, 0)]) (by decide +kernel)
  exact ⟨s, hs, hseen, (processes_at_most_once rfl hs).1 (onePartition, 0)⟩

end Group

end BulkTraffic.GoEngine.Consumer
