import Passmower.ClientSweep
import Passmower.Resumption.Stepping
import Passmower.Resumption.Triple

/-! What sweeps remove and what handlers have written, when no write removes or replaces a record on old grounds. -/
namespace Passmower
open JavaScript Resumption Program

structure Absent (s : ClientWorld) (reference : Reference) (seen : Nat) : Prop where
  past : seen ≤ s.clock
  before : ∀ since, s.enabledSince reference = some since → seen < since

structure ClientSnapshot.Genuine (s : ClientWorld) (client : ClientSnapshot) : Prop where
  since : ∀ since, client.resource.enabledSince = some since → since ≤ s.clock
  disabled : client.resource.enabledSince = none → Absent s client.reference client.seen

def WatchEvent.Genuine (s : ClientWorld) : WatchEvent → Prop
  | .added client | .modified client => client.Genuine s
  | .deleted client => Absent s client.reference client.seen

structure ClientWorld.Valid (filter : NamespaceFilter) (s : ClientWorld) : Prop where
  justified : ∀ removal ∈ s.removals, removal.Justified filter
  filed : ∀ id record reference, s.records id = some record → record.reference = some reference → id = reference.clientId
  since : ∀ reference since, s.enabledSince reference = some since → since ≤ s.clock
  wrote : ∀ entry ∈ s.wrote, entry.2 ≤ s.clock
  served : ∀ reference since, s.enabledSince reference = some since → (reference,since) ∈ s.wrote →
    ∃ record, s.records reference.clientId = some record ∧ record.reference = some reference ∧ since < record.written
  events : ∀ event ∈ s.events, event.Genuine s

structure Forth (s t : ClientWorld) : Prop where
  clock : s.clock ≤ t.clock
  since : ∀ reference since, t.enabledSince reference = some since → s.enabledSince reference = some since ∨ s.clock < since

structure Drift (filter : NamespaceFilter) (s t : ClientWorld) : Prop extends Forth s t where
  valid : s.Valid filter → t.Valid filter

structure Elapsed (filter : NamespaceFilter) (n : Nat) (s t : ClientWorld) : Prop extends Drift filter s t where
  listed : t.listed n = s.listed n
  confirmed : ∀ reference ∈ s.confirmed n, reference ∈ t.confirmed n

structure Tends (filter : NamespaceFilter) (n : Nat) (s t : ClientWorld) : Prop extends Drift filter s t where
  listed : ∀ m, m ≠ n → t.listed m = s.listed m
  confirmed : ∀ m, m ≠ n → t.confirmed m = s.confirmed m

def tending (filter : NamespaceFilter) (n : Nat) : Contract clientCalls ClientWorld :=
  ⟨Timely,Elapsed filter n,Tends filter n⟩

section Drifts
variable {filter : NamespaceFilter} {n m : Nat} {s t u : ClientWorld} {reference : Reference} {seen : Nat} {client : ClientSnapshot}
  {event : WatchEvent}

theorem forthTrans (first : Forth s t) (second : Forth t u) : Forth s u where
  clock := le_trans first.clock second.clock
  since reference since enabled := by
    rcases second.since reference since enabled with before | after
    · exact first.since reference since before
    · exact .inr (lt_of_le_of_lt first.clock after)

theorem driftSelf (s : ClientWorld) : Drift filter s s := ⟨⟨le_refl _,fun _ _ => .inl⟩,id⟩

theorem driftTrans (first : Drift filter s t) (second : Drift filter t u) : Drift filter s u :=
  ⟨forthTrans first.toForth second.toForth,second.valid ∘ first.valid⟩

theorem elapsedSelf (s : ClientWorld) : Elapsed filter n s s := ⟨driftSelf s,rfl,fun _ => id⟩

theorem elapsedTrans (first : Elapsed filter n s t) (second : Elapsed filter n t u) : Elapsed filter n s u :=
  ⟨driftTrans first.toDrift second.toDrift,second.listed.trans first.listed,
    fun reference inside => second.confirmed reference (first.confirmed reference inside)⟩

theorem tendsTrans (first : Tends filter n s t) (second : Tends filter n t u) : Tends filter n s u :=
  ⟨driftTrans first.toDrift second.toDrift,fun m other => (second.listed m other).trans (first.listed m other),
    fun m other => (second.confirmed m other).trans (first.confirmed m other)⟩

theorem tendsElapsed (apart : n ≠ m) (owns : Tends filter n s t) : Elapsed filter m s t :=
  ⟨owns.toDrift,owns.listed m apart.symm,fun reference inside => by rw [owns.confirmed m apart.symm]; exact inside⟩

theorem driftTends (drift : Drift filter s t) (listed : t.listed = s.listed) (confirmed : t.confirmed = s.confirmed) :
    Tends filter n s t ∧ Elapsed filter n s t :=
  ⟨⟨drift,fun m _ => by rw [listed],fun m _ => by rw [confirmed]⟩,⟨drift,by rw [listed],fun _ inside => by rw [confirmed]; exact inside⟩⟩

theorem absentForth (forth : Forth s t) (absent : Absent s reference seen) : Absent t reference seen where
  past := le_trans absent.past forth.clock
  before since enabled := by
    rcases forth.since reference since enabled with before | after
    · exact absent.before since before
    · exact lt_of_le_of_lt absent.past after

theorem genuineForth (forth : Forth s t) (genuine : client.Genuine s) : client.Genuine t :=
  ⟨fun since enabled => le_trans (genuine.since since enabled) forth.clock,
    fun disabled => absentForth forth (genuine.disabled disabled)⟩

theorem eventForth (forth : Forth s t) (genuine : event.Genuine s) : event.Genuine t := by
  cases event with
  | added client => exact genuineForth forth genuine
  | modified client => exact genuineForth forth genuine
  | deleted client => exact absentForth forth genuine

end Drifts

section Steps
variable {filter : NamespaceFilter} {n : Nat} {s t : ClientWorld} {reference : Reference} {seen : Nat} {client : ClientSnapshot}
  {event : ClientSnapshot → WatchEvent}

theorem driftSame (records : t.records = s.records) (resources : t.resources = s.resources) (events : t.events = s.events)
    (clock : t.clock = s.clock) (wrote : t.wrote = s.wrote) (removals : t.removals = s.removals) : Drift filter s t := by
  have enabled : t.enabledSince = s.enabledSince := by
    funext reference
    unfold ClientWorld.enabledSince ClientWorld.resource
    rw [resources]
  have forth : Forth s t := ⟨clock.ge,fun reference since there => .inl (enabled ▸ there)⟩
  refine ⟨forth,fun valid => ⟨?_,?_,?_,?_,?_,?_⟩⟩
  · rw [removals]
    exact valid.justified
  · rw [records]
    exact valid.filed
  · rw [enabled,clock]
    exact valid.since
  · rw [wrote,clock]
    exact valid.wrote
  · rw [enabled,wrote,records]
    exact valid.served
  · rw [events]
    exact fun event inside => eventForth forth (valid.events event inside)

theorem lookupFilter {α β : Type} [DecidableEq α] (entries : List (α × β)) (removed key : α) :
    (entries.filter fun entry => entry.1 ≠ removed).lookup key = if key = removed then none else entries.lookup key := by
  induction entries with
  | nil => simp
  | cons entry rest ih =>
      by_cases gone : entry.1 = removed
      · rw [List.filter_cons_of_neg (by simp [gone]),ih,List.lookup_cons]
        split
        · rfl
        · rename_i other
          rw [gone,beq_false_of_ne other]
      · rw [List.filter_cons_of_pos (by simp [gone]),List.lookup_cons,ih,List.lookup_cons]
        by_cases here : key = entry.1
        · simp [here,gone]
        · rw [beq_false_of_ne here]

@[simp] theorem storeEnabled : (s.store event client).enabledSince reference =
    if reference = client.reference then client.resource.enabledSince else s.enabledSince reference := by
  unfold ClientWorld.enabledSince ClientWorld.resource ClientWorld.store
  simp only [List.lookup_cons,lookupFilter]
  split <;> simp_all

theorem storeDrift (later : client.seen = s.clock + 1)
    (since : ∀ since, client.resource.enabledSince = some since → s.enabledSince client.reference = some since ∨ since = s.clock + 1)
    (told : client.Genuine (s.store event client) → (event client).Genuine (s.store event client)) :
    Drift filter s (s.store event client) ∧ (s.Valid filter → client.Genuine (s.store event client)) := by
  have clock : (s.store event client).clock = s.clock + 1 := later
  have forth : Forth s (s.store event client) := by
    refine ⟨by omega,fun reference at_ enabled => ?_⟩
    rw [storeEnabled] at enabled
    split at enabled
    · rename_i same
      subst same
      rcases since at_ enabled with before | now
      · exact .inl before
      · exact .inr (by omega)
    · exact .inl enabled
  have genuine (valid : s.Valid filter) : client.Genuine (s.store event client) := by
    refine ⟨fun at_ enabled => ?_,fun disabled => ⟨by omega,fun at_ enabled => ?_⟩⟩
    · rcases since at_ enabled with before | now
      · have past := valid.since client.reference at_ before
        omega
      · omega
    · rw [storeEnabled,if_pos rfl,disabled] at enabled
      cases enabled
  refine ⟨⟨forth,fun valid => ⟨valid.justified,valid.filed,fun reference at_ enabled => ?_,fun entry inside => ?_,
    fun reference at_ enabled wrote => ?_,fun event' inside => ?_⟩⟩,genuine⟩
  · rcases forth.since reference at_ enabled with before | _
    · have past := valid.since reference at_ before
      omega
    · rw [storeEnabled] at enabled
      split at enabled
      · exact (genuine valid).since at_ enabled
      · have past := valid.since reference at_ enabled
        omega
  · have past := valid.wrote entry inside
    omega
  · rcases forth.since reference at_ enabled with before | after
    · exact valid.served reference at_ before wrote
    · have past := valid.wrote _ wrote
      simp only at past
      omega
  · simp only [ClientWorld.store,List.mem_append,List.mem_singleton] at inside
    rcases inside with inside | rfl
    · exact eventForth forth (valid.events event' inside)
    · exact told (genuine valid)

theorem recordsDrift (resources : t.resources = s.resources) (clock : s.clock ≤ t.clock) (events : t.events = s.events)
    (justified : s.Valid filter → ∀ removal ∈ t.removals, removal.Justified filter)
    (filed : s.Valid filter → ∀ id record reference, t.records id = some record → record.reference = some reference →
      id = reference.clientId)
    (wrote : s.Valid filter → ∀ entry ∈ t.wrote, entry.2 ≤ t.clock)
    (served : s.Valid filter → ∀ reference since, s.enabledSince reference = some since → (reference,since) ∈ t.wrote →
      ∃ record, t.records reference.clientId = some record ∧ record.reference = some reference ∧ since < record.written) :
    Drift filter s t := by
  have enabled : t.enabledSince = s.enabledSince := by
    funext reference
    unfold ClientWorld.enabledSince ClientWorld.resource
    rw [resources]
  have forth : Forth s t := ⟨clock,fun reference since there => .inl (enabled ▸ there)⟩
  refine ⟨forth,fun valid => ⟨justified valid,filed valid,fun reference at_ there => ?_,wrote valid,fun reference at_ there => ?_,
    fun event inside => ?_⟩⟩
  · rw [enabled] at there
    exact le_trans (valid.since reference at_ there) clock
  · rw [enabled] at there
    exact served valid reference at_ there
  · rw [events] at inside
    exact eventForth forth (valid.events event inside)

theorem setDrift (genuine : client.Genuine s) (timely : ∀ record reference, s.records client.clientId = some record →
      record.reference = some reference → reference = client.reference ∨ s.enabledSince reference = none) :
    Drift filter s (s.written n (.set client)) := by
  refine recordsDrift rfl (Nat.le_succ _) rfl (fun valid => valid.justified) (fun valid id record reference there its => ?_)
    (fun valid entry inside => ?_) (fun valid reference at_ enabled wrote => ?_)
  · simp only [ClientWorld.written,ClientWorld.record] at there
    split at there
    · rename_i same
      cases Option.some.inj there
      cases Option.some.inj its
      exact same
    · exact valid.filed id record reference there its
  · simp only [ClientWorld.written,List.mem_append,Option.mem_toList,Option.map_eq_some_iff] at inside
    rcases inside with ⟨at_,since,rfl⟩ | inside
    · exact Nat.le_succ_of_le (genuine.since at_ since)
    · exact Nat.le_succ_of_le (valid.wrote entry inside)
  · have past := valid.since reference at_ enabled
    have own (same : reference = client.reference) : ∃ record, (s.written n (.set client)).records reference.clientId =
        some record ∧ record.reference = some reference ∧ at_ < record.written :=
      ⟨⟨some client.reference,s.clock + 1⟩,by simp [ClientWorld.written,ClientWorld.record,ClientSnapshot.clientId,same],
        by simp [same],Nat.lt_succ_of_le past⟩
    simp only [ClientWorld.written,List.mem_append,Option.mem_toList,Option.map_eq_some_iff] at wrote
    rcases wrote with ⟨_,_,same⟩ | before
    · exact own (congrArg Prod.fst same).symm
    · obtain ⟨record,there,its,later⟩ := valid.served reference at_ enabled before
      by_cases here : reference.clientId = client.clientId
      · rcases timely record reference (here ▸ there) its with same | disabled
        · exact own same
        · rw [disabled] at enabled
          cases enabled
      · exact ⟨record,by simp [ClientWorld.written,ClientWorld.record,here,there],its,later⟩

theorem delDrift {id : String} {deletion : Deletion}
    (absent : ∀ reference seen, deletion.basis = some (reference,seen) → Absent s reference seen)
    (timely : ∀ record, s.records id = some record → deletion.Founded s record)
    (justified : s.Valid filter → ∀ record reference seen, s.records id = some record → deletion.isSweep = true →
      deletion.basis = some (reference,seen) → record.reference = some reference →
      Removal.Justified filter ⟨record,s.listed n,s.confirmed n⟩) :
    Drift filter s (s.written n (.del id deletion)) := by
  cases there : s.records id with
  | none =>
      simp only [ClientWorld.written,there]
      exact driftSelf s
  | some record =>
      have founded := timely record there
      simp only [ClientWorld.written,there]
      refine recordsDrift rfl (le_refl _) rfl (fun valid removal inside => ?_) (fun valid other found reference at_ its => ?_)
        (fun valid => valid.wrote) (fun valid reference at_ enabled wrote => ?_)
      · simp only at inside
        split at inside
        · rename_i swept
          rcases List.mem_cons.mp inside with rfl | before
          · obtain ⟨reference,seen,basis,its⟩ := founded.swept swept
            exact justified valid record reference seen there swept basis its
          · exact valid.justified removal before
        · exact valid.justified removal inside
      · simp only [ClientWorld.record] at at_
        split at at_
        · cases at_
        · exact valid.filed other found reference at_ its
      · obtain ⟨found,stored,its,later⟩ := valid.served reference at_ enabled wrote
        have kept : reference.clientId ≠ id := by
          rintro rfl
          cases Option.some.inj (stored.symm.trans there)
          obtain ⟨seen,basis,written⟩ := founded.enabled reference at_ its enabled
          have before := (absent reference seen basis).before at_ enabled
          omega
        exact ⟨found,by simp [ClientWorld.record,kept,stored],its,later⟩

theorem appliedDrift {fingerprint : String} {valid disabled : Bool} :
    Drift filter s (s.applied reference fingerprint valid disabled) := by
  have since : ∀ since, (if disabled then none else some ((s.enabledSince reference).getD (s.clock + 1))) = some since →
      s.enabledSince reference = some since ∨ since = s.clock + 1 := by
    intro since enabled
    split at enabled
    · cases enabled
    · cases before : s.enabledSince reference with
      | none => exact .inr (by simpa [before] using enabled.symm)
      | some at_ => exact .inl (by simpa [before] using enabled)
  unfold ClientWorld.applied
  simp only
  split
  · exact (storeDrift rfl since id).1
  · exact (storeDrift rfl since id).1

theorem removedDrift : Drift filter s (s.removed reference) := by
  unfold ClientWorld.removed
  split
  · rename_i resource stored
    generalize after : ({s with
      resources := s.resources.filter fun entry => entry.1 ≠ reference
      events := s.events ++ [.deleted ⟨reference,resource,s.clock + 1⟩]
      clock := s.clock + 1} : ClientWorld) = t
    have enabled (other : Reference) : t.enabledSince other = if other = reference then none else s.enabledSince other := by
      subst after
      unfold ClientWorld.enabledSince ClientWorld.resource
      simp only [lookupFilter]
      split <;> rfl
    have still {other : Reference} {at_ : Nat} (there : t.enabledSince other = some at_) : s.enabledSince other = some at_ := by
      rw [enabled] at there
      split at there
      · cases there
      · exact there
    have clock : t.clock = s.clock + 1 := by subst after; rfl
    have forth : Forth s t := ⟨by omega,fun other at_ there => .inl (still there)⟩
    refine ⟨forth,fun valid => ⟨?_,?_,fun other at_ there => ?_,fun entry inside => ?_,fun other at_ there => ?_,
      fun event inside => ?_⟩⟩
    · subst after
      exact valid.justified
    · subst after
      exact valid.filed
    · exact le_trans (valid.since other at_ (still there)) forth.clock
    · have past := valid.wrote entry (by subst after; exact inside)
      omega
    · have served := valid.served other at_ (still there)
      subst after
      exact served
    · have told : event ∈ s.events ∨ event = .deleted ⟨reference,resource,s.clock + 1⟩ := by
        subst after
        simpa using inside
      rcases told with before | rfl
      · exact eventForth forth (valid.events event before)
      · exact ⟨clock.ge,fun at_ there => by rw [enabled,if_pos rfl] at there; cases there⟩
  · exact driftSelf s

theorem storedGenuine {resource : ClientResource} (valid : s.Valid filter) (stored : s.resource reference = some resource) :
    ClientSnapshot.Genuine s ⟨reference,resource,s.clock⟩ where
  since at_ enabled := valid.since reference at_ (by unfold ClientWorld.enabledSince; rw [stored]; exact enabled)
  disabled disabled := ⟨le_refl _,fun at_ enabled => by
    unfold ClientWorld.enabledSince at enabled
    have disabled : resource.enabledSince = none := disabled
    rw [stored,Option.bind_some,disabled] at enabled
    cases enabled⟩

theorem replayedDrift : Drift filter s (s.replayed reference) := by
  unfold ClientWorld.replayed
  split
  · rename_i resource stored
    have forth : Forth s {s with events := s.events ++ [.added ⟨reference,resource,s.clock⟩]} :=
      ⟨le_refl _,fun _ _ => .inl⟩
    refine ⟨forth,fun valid => ⟨valid.justified,valid.filed,valid.since,valid.wrote,valid.served,fun event inside => ?_⟩⟩
    rcases List.mem_append.mp inside with before | now
    · exact eventForth forth (valid.events event before)
    · cases List.mem_singleton.mp now
      exact genuineForth forth (storedGenuine valid stored)
  · exact driftSelf s

end Steps

def Told (filter : NamespaceFilter) (n : Nat) (F : ClientWorld → Prop) : Prop := ∀ s t, Elapsed filter n s t → F s → F t

def Does (own : String) (filter : NamespaceFilter) (n : Nat) {α : Type} (F : ClientWorld → Prop) (p : Clients α)
    (G : Except JsError α → ClientWorld → Prop) : Prop :=
  Triple (answerClients own filter.inside n) (tending filter n) (fun s => s.Valid filter ∧ F s) p
    fun r s => s.Valid filter ∧ G r s

section Rules
variable {own : String} {filter : NamespaceFilter} {n : Nat} {α β : Type} {F : ClientWorld → Prop}

theorem validTold (told : Told filter n F) : Stable (tending filter n) fun s => s.Valid filter ∧ F s :=
  fun s t moved holds => ⟨moved.valid holds.1,told s t moved holds.2⟩

theorem toldAnd {F' : ClientWorld → Prop} (told : Told filter n F) (told' : Told filter n F') :
    Told filter n fun s => F s ∧ F' s := fun s t moved holds => ⟨told s t moved holds.1,told' s t moved holds.2⟩

theorem genuineTold {client : ClientSnapshot} : Told filter n client.Genuine :=
  fun _ _ moved genuine => genuineForth moved.toForth genuine

theorem absentTold {reference : Reference} {seen : Nat} : Told filter n fun s => Absent s reference seen :=
  fun _ _ moved absent => absentForth moved.toForth absent

theorem doesPure {a : α} {G : Except JsError α → ClientWorld → Prop} (told : Told filter n F) (ends : ∀ s, F s → G (.ok a) s) :
    Does own filter n F (.pure a) G := triplePure (validTold told) fun s holds => ⟨holds.1,ends s holds.2⟩

theorem doesThrow {e : JsError} {G : Except JsError α → ClientWorld → Prop} (told : Told filter n F)
    (ends : ∀ s, F s → G (.error e) s) : Does own filter n F (.throw e) G :=
  tripleThrow (validTold told) fun s holds => ⟨holds.1,ends s holds.2⟩

theorem doesMono {p : Clients α} {F' : ClientWorld → Prop} {G G' : Except JsError α → ClientWorld → Prop}
    (does : Does own filter n F p G) (before : ∀ s, F' s → F s) (after : ∀ r s, G r s → G' r s) : Does own filter n F' p G' :=
  tripleMono does (fun s holds => ⟨holds.1,before s holds.2⟩) fun r s holds => ⟨holds.1,after r s holds.2⟩

theorem doesAsk {c : ClientCall} {f : ClientAnswer c → Clients α} {G : Except JsError α → ClientWorld → Prop}
    (answered : ClientAnswer c → ClientWorld → Prop) (told : Told filter n F)
    (call : ∀ s, s.Valid filter → F s → Timely s c → Tends filter n s (answerClients own filter.inside n () c s).2 ∧
      answered (answerClients own filter.inside n () c s).1 (answerClients own filter.inside n () c s).2)
    (next : ∀ a, Does own filter n (answered a) (f a) G) : Does own filter n F (ask (I := clientCalls) c >>= f) G := by
  apply tripleAsk (fun a s => s.Valid filter ∧ answered a s) (validTold told)
  · intro s _ holds timely
    obtain ⟨tends,answer⟩ := call s holds.1 holds.2 timely
    exact ⟨tends,tends.valid holds.1,answer⟩
  · exact next

theorem doesAny {c : ClientCall} {f : ClientAnswer c → Clients α} {G : Except JsError α → ClientWorld → Prop}
    (told : Told filter n F) (call : ∀ s, s.Valid filter → F s → Timely s c →
      Tends filter n s (answerClients own filter.inside n () c s).2 ∧ Elapsed filter n s (answerClients own filter.inside n () c s).2)
    (next : ∀ a, Does own filter n F (f a) G) : Does own filter n F (ask (I := clientCalls) c >>= f) G := by
  apply doesAsk (fun _ => F) told
  · intro s valid fact timely
    obtain ⟨tends,elapsed⟩ := call s valid fact timely
    exact ⟨tends,told s _ elapsed fact⟩
  · exact next

theorem doesBind {p : Clients α} {f : α → Clients β} {G : Except JsError β → ClientWorld → Prop} (between : α → ClientWorld → Prop)
    (first : Does own filter n F p fun r s => match r with
      | .ok a => between a s
      | .error e => G (.error e) s)
    (next : ∀ a, Does own filter n (between a) (f a) G) : Does own filter n F (p >>= f) G := by
  apply tripleBind elapsedSelf (fun a s => s.Valid filter ∧ between a s)
  · apply tripleMono first (fun _ => id)
    intro r s holds
    cases r with
    | ok a => exact holds
    | error e => exact holds
  · exact next

theorem doesTryCatch {p : Clients α} {handle : JsError → Clients α} {G : Except JsError α → ClientWorld → Prop}
    (failed : ClientWorld → Prop)
    (body : Does own filter n F p fun r s => match r with
      | .ok a => G (.ok a) s
      | .error _ => failed s)
    (handler : ∀ e, Does own filter n failed (handle e) G) : Does own filter n F (p.tryCatch handle) G := by
  apply tripleTryCatch elapsedSelf (fun _ s => s.Valid filter ∧ failed s)
  · apply tripleMono body (fun _ => id)
    intro r s holds
    cases r with
    | ok a => exact holds
    | error e => exact holds
  · exact handler

end Rules

section Calls
variable {own : String} {filter : NamespaceFilter} {n : Nat} {α : Type} {F : ClientWorld → Prop}

theorem tendsSelf (s : ClientWorld) : Tends filter n s s ∧ Elapsed filter n s s := driftTends (driftSelf s) rfl rfl

theorem rememberTends {s : ClientWorld} {client : ClientSnapshot} {fingerprint : Option String} :
    Tends filter n s (s.remember client fingerprint) ∧ Elapsed filter n s (s.remember client fingerprint) :=
  driftTends (driftSame rfl rfl rfl rfl rfl rfl) rfl rfl
theorem shownTends {s : ClientWorld} {kind : ClientKind} {references : Option (List Reference)} :
    Tends filter n s (s.shown n kind references) :=
  ⟨driftSame rfl rfl rfl rfl rfl rfl,fun m other => by simp [ClientWorld.shown,other],fun _ _ => rfl⟩

theorem missedTends {s : ClientWorld} {reference : Reference} :
    Tends filter n s (s.missed n reference) ∧ Elapsed filter n s (s.missed n reference) := by
  have drift : Drift filter s (s.missed n reference) := driftSame rfl rfl rfl rfl rfl rfl
  refine ⟨⟨drift,fun _ _ => rfl,fun m other => by simp [ClientWorld.missed,other]⟩,drift,rfl,fun missed inside => ?_⟩
  simp [ClientWorld.missed,inside]

theorem writtenShown (s : ClientWorld) (write : RedisWrite) :
    (s.written n write).listed = s.listed ∧ (s.written n write).confirmed = s.confirmed := by
  cases write with
  | del id deletion =>
      simp only [ClientWorld.written]
      split
      · exact ⟨rfl,rfl⟩
      · exact ⟨rfl,rfl⟩
  | _ => exact ⟨rfl,rfl⟩

theorem orClosedDoes {a : Option α} {G : α → ClientWorld → Prop} (told : Told filter n F) (some : ∀ b s, a = some b → F s → G b s) :
    Does own filter n F (ClientRedis.orClosed a) fun r s => F s ∧ ∀ b, r = .ok b → G b s := by
  cases a with
  | some b => exact doesPure told fun s fact => ⟨fact,fun _ same => by cases same; exact some b s rfl fact⟩
  | none => exact doesThrow told fun s fact => ⟨fact,fun _ same => by cases same⟩

theorem findDoes {key : String} (told : Told filter n F) : Does own filter n F (ClientRedis.find key) fun r s => F s ∧
    ∀ found, r = .ok found → ∀ record reference, found = some record → record.reference = some reference →
      key = reference.clientId := by
  unfold ClientRedis.find
  apply doesAsk (fun answer s => F s ∧ ∀ found, answer = some found → ∀ record reference, found = some record →
    record.reference = some reference → key = reference.clientId) told
  · intro s valid fact _
    refine ⟨(tendsSelf s).1,fact,fun found answer record reference there its => ?_⟩
    simp only [answerClients] at answer
    split at answer
    · exact valid.filed key record reference ((Option.some.inj answer).trans there) its
    · cases answer
  · intro answer
    have told' : Told filter n fun s => F s ∧ ∀ found, answer = some found → ∀ record reference, found = some record →
        record.reference = some reference → key = reference.clientId := toldAnd told fun _ _ _ fact => fact
    apply doesMono (orClosedDoes (G := fun found _ => ∀ record reference, found = some record →
      record.reference = some reference → key = reference.clientId) told' fun found s same fact => fact.2 found same)
      (fun _ => id)
    exact fun r s holds => ⟨holds.1.1,holds.2⟩

theorem writeDoes {write : RedisWrite} (told : Told filter n F)
    (step : ∀ s, s.Valid filter → F s → s.outcome ≠ .refused → Timely s (.write write) → Drift filter s (s.written n write)) :
    Does own filter n F (ClientRedis.write write) fun _ => F := by
  unfold ClientRedis.write
  apply doesAny told
  · intro s valid fact timely
    have written (carried : s.outcome ≠ .refused) : Tends filter n s (s.written n write) ∧ Elapsed filter n s (s.written n write) :=
      driftTends (step s valid fact carried timely) (writtenShown s write).1 (writtenShown s write).2
    cases outcome : s.outcome with
    | refused =>
        simp only [answerClients,outcome]
        exact tendsSelf s
    | applied =>
        simp only [answerClients,outcome]
        exact written (by simp [outcome])
    | unanswered =>
        simp only [answerClients,outcome]
        exact written (by simp [outcome])
  · intro done
    change Does own filter n F (if done = true then _ else _) _
    split
    · exact doesPure told fun _ => id
    · exact doesThrow told fun _ => id

theorem idsDoes {write : RedisWrite} (told : Told filter n F) (same : ∀ s : ClientWorld,
      (s.written n write).records = s.records ∧ (s.written n write).resources = s.resources ∧
      (s.written n write).events = s.events ∧ (s.written n write).clock = s.clock ∧ (s.written n write).wrote = s.wrote ∧
      (s.written n write).removals = s.removals) : Does own filter n F (ClientRedis.write write) fun _ => F :=
  writeDoes told fun s _ _ _ _ => by
    obtain ⟨records,resources,events,clock,wrote,removals⟩ := same s
    exact driftSame records resources events clock wrote removals

theorem upsertDoes {client : ClientSnapshot} (told : Told filter n F) (genuine : ∀ s, F s → client.Genuine s) :
    Does own filter n F (ClientRedis.upsert client) fun _ => F := by
  unfold ClientRedis.upsert
  apply doesBind (fun _ => F)
  · apply doesMono (writeDoes told fun s _ fact carried timely => ?_) (fun _ => id) fun r s fact => by cases r <;> exact fact
    rcases timely with refused | timely
    · exact absurd refused carried
    · exact setDrift (genuine s fact) timely
  · exact fun _ => idsDoes told fun s => ⟨rfl,rfl,rfl,rfl,rfl,rfl⟩

theorem destroyDoes {key : String} {deletion : Deletion} (told : Told filter n F)
    (absent : ∀ s, F s → ∀ reference seen, deletion.basis = some (reference,seen) → Absent s reference seen)
    (justified : ∀ s, F s → ∀ record reference seen, s.records key = some record → deletion.isSweep = true →
      deletion.basis = some (reference,seen) → record.reference = some reference →
      Removal.Justified filter ⟨record,s.listed n,s.confirmed n⟩) :
    Does own filter n F (ClientRedis.destroy key deletion) fun _ => F := by
  unfold ClientRedis.destroy
  apply doesBind (fun _ => F)
  · apply doesMono (findDoes told) (fun _ => id) fun r s fact => by cases r <;> exact fact.1
  · intro _
    apply doesBind (fun _ => F)
    · apply doesMono (writeDoes told fun s _ fact carried timely => ?_) (fun _ => id) fun r s fact => by cases r <;> exact fact
      rcases timely with refused | timely
      · exact absurd refused carried
      · exact delDrift (absent s fact) timely fun _ => justified s fact
    · exact fun _ => idsDoes told fun s => ⟨rfl,rfl,rfl,rfl,rfl,rfl⟩

theorem handledDoes {key : String} {reference : Reference} {seen : Nat} (told : Told filter n F)
    (absent : ∀ s, F s → Absent s reference seen) :
    Does own filter n F (ClientRedis.destroy key (.handled reference seen)) fun _ => F := by
  apply destroyDoes told
  · intro s fact other at_ basis
    cases Option.some.inj basis
    exact absent s fact
  · intro s _ record other at_ _ swept
    cases swept

end Calls

section Handlers
variable {own : String} {filter : NamespaceFilter} {n : Nat} {F : ClientWorld → Prop} {client : ClientSnapshot}

theorem statusTends {s : ClientWorld} (valid : s.Valid filter) :
    (Tends filter n s (answerClients own filter.inside n () (.replaceClientStatus client) s).2 ∧
      Elapsed filter n s (answerClients own filter.inside n () (.replaceClientStatus client) s).2) ∧
      ∀ claimed, (answerClients own filter.inside n () (.replaceClientStatus client) s).1 = some claimed →
        claimed.Genuine (answerClients own filter.inside n () (.replaceClientStatus client) s).2 := by
  simp only [answerClients]
  split
  · exact ⟨tendsSelf s,fun claimed never => by cases never⟩
  · exact ⟨tendsSelf s,fun claimed never => by cases never⟩
  · rename_i resource stored _
    split
    · generalize shown : ClientSnapshot.mk client.reference {resource with boundTo := some own, version := s.clock + 1}
        (s.clock + 1) = claimed
      have since : ∀ since, claimed.resource.enabledSince = some since →
          s.enabledSince claimed.reference = some since ∨ since = s.clock + 1 := by
        subst shown
        exact fun since enabled => .inl (by unfold ClientWorld.enabledSince; rw [stored]; exact enabled)
      have later : claimed.seen = s.clock + 1 := by subst shown; rfl
      have stores : Drift filter s (s.store WatchEvent.modified claimed) ∧
          (s.Valid filter → claimed.Genuine (s.store WatchEvent.modified claimed)) := storeDrift later since id
      refine ⟨driftTends stores.1 rfl rfl,fun answered answer => ?_⟩
      split at answer
      · cases Option.some.inj answer
        exact stores.2 valid
      · cases answer
    · exact ⟨tendsSelf s,fun claimed never => by cases never⟩

theorem reportDoes (told : Told filter n F) : Does own filter n F (ClientOperator.report client) fun _ => F := by
  unfold ClientOperator.report
  apply doesAny told
  · exact fun s valid _ _ => (statusTends valid).1
  · exact fun _ => doesPure told fun _ => id

theorem prepareDoes {preparation : Preparation} (told : Told filter n F) :
    Does own filter n F (ClientOperator.prepare preparation client) fun _ => F := by
  unfold ClientOperator.prepare
  apply doesAny told
  · intro s _ _ _
    cases preparation with
    | _ => exact tendsSelf s
  · intro prepared
    cases prepared with
    | some hasSecret => exact doesPure told fun _ => id
    | none => exact doesThrow told fun _ => id

theorem preparedDoes {preparation : Preparation} {f : Bool → Clients Unit} (told : Told filter n F)
    (next : ∀ hasSecret, Does own filter n F (f hasSecret) fun _ => F) :
    Does own filter n F (ClientOperator.prepare preparation client >>= f) fun _ => F := by
  apply doesBind (fun _ => F)
  · exact doesMono (prepareDoes told) (fun _ => id) fun r s fact => by cases r <;> exact fact
  · exact next

theorem reportingDoes {body : Clients Unit} (told : Told filter n F) (does : Does own filter n F body fun _ => F) :
    Does own filter n F (ClientOperator.reporting client body) fun _ => F := by
  unfold ClientOperator.reporting
  apply doesTryCatch F
  · exact doesMono does (fun _ => id) fun r s fact => by cases r <;> exact fact
  · exact fun _ => reportDoes told

theorem disableDoes (disabled : client.isDisabled = true) :
    Does own filter n client.Genuine (ClientOperator.disable client) fun _ => client.Genuine := by
  have absent (s : ClientWorld) (genuine : client.Genuine s) : Absent s client.reference client.seen :=
    genuine.disabled (Option.isNone_iff_eq_none.mp disabled)
  unfold ClientOperator.disable
  apply doesBind (fun _ => client.Genuine)
  · exact doesMono (handledDoes genuineTold absent) (fun _ => id) fun r s fact => by cases r <;> exact fact
  · exact fun _ => reportDoes genuineTold

theorem storeDoes : Does own filter n client.Genuine (ClientOperator.store client) fun _ => client.Genuine := by
  unfold ClientOperator.store
  apply doesBind (fun _ => client.Genuine)
  · exact doesMono (upsertDoes genuineTold fun _ => id) (fun _ => id) fun r s fact => by cases r <;> exact fact
  · exact fun _ => reportDoes genuineTold

def Handles (own : String) (filter : NamespaceFilter) (n : Nat) (F : ClientWorld → Prop) (p : Clients Unit) : Prop :=
  Does own filter n F p fun _ _ => True

theorem handles {p : Clients Unit} (does : Does own filter n F p fun _ => F) : Handles own filter n F p :=
  doesMono does (fun _ => id) fun _ _ _ => trivial

theorem handlesReporting {body : Clients Unit} (does : Does own filter n client.Genuine body fun _ => client.Genuine) :
    Handles own filter n client.Genuine (ClientOperator.reporting client body) := handles (reportingDoes genuineTold does)

theorem whenOursDoes {next : ClientSnapshot → Clients Unit}
    (rest : ∀ client : ClientSnapshot, Handles own filter n client.Genuine (next client)) :
    Handles own filter n client.Genuine (ClientOperator.whenOurs own client next) := by
  unfold ClientOperator.whenOurs
  split
  · exact rest client
  · split
    · exact doesPure genuineTold fun _ _ => trivial
    · apply doesAsk (fun answer s => ∀ claimed, answer = some claimed → claimed.Genuine s) genuineTold
      · intro s valid _ _
        obtain ⟨tends,claimed⟩ := statusTends valid
        exact ⟨tends.1,claimed⟩
      · intro answer
        have told : Told filter n fun s => ∀ claimed, answer = some claimed → claimed.Genuine s :=
          fun s t moved claimed snapshot same => genuineTold s t moved (claimed snapshot same)
        split
        · rename_i claimed same
          have same := (Option.filter_eq_some_iff.mp same).1
          exact doesMono (rest claimed) (fun s genuine => genuine claimed same) fun _ _ => id
        · exact doesPure told fun _ _ => trivial

theorem settleCreatedDoes {hasSecret : Bool} :
    Does own filter n client.Genuine (ClientOperator.settleCreated client hasSecret) fun _ => client.Genuine := by
  unfold ClientOperator.settleCreated
  split
  · exact disableDoes (by assumption)
  · split
    · exact storeDoes
    · exact reportDoes genuineTold

theorem registerDoes {f : Unit → Clients Unit} (rest : Handles own filter n F (f ())) (told : Told filter n F) :
    Handles own filter n F (ask (I := clientCalls) (.register client) >>= f) := by
  apply doesAny told
  · exact fun s _ _ _ => rememberTends
  · exact fun _ => rest

theorem changedDoes {f : Bool → Clients Unit} (rest : ∀ changed, Handles own filter n F (f changed)) (told : Told filter n F) :
    Handles own filter n F (ask (I := clientCalls) (.shouldReconcile client) >>= f) := by
  apply doesAny told
  · exact fun s _ _ _ => rememberTends
  · exact rest

theorem createOIDCClientDoes : Handles own filter n client.Genuine (ClientOperator.createOIDCClient own client) := by
  unfold ClientOperator.createOIDCClient
  apply doesAny genuineTold
  · exact fun s _ _ _ => tendsSelf s
  · intro (replayed : Bool)
    change Handles own filter n client.Genuine (ask (I := clientCalls) (.register client) >>= _)
    apply registerDoes _ genuineTold
    split
    · exact handles (reportDoes genuineTold)
    · split
      · apply handlesReporting
        apply preparedDoes genuineTold
        intro _
        have rest (known : Option ClientRecord) : Does own filter n client.Genuine
            (if known.isSome then ClientOperator.settleCreated client false
              else ClientOperator.prepare .reconcileClientSecret client >>= ClientOperator.settleCreated client)
            fun _ => client.Genuine := by
          split
          · exact settleCreatedDoes
          · exact preparedDoes genuineTold fun hasSecret => settleCreatedDoes
        cases replayed with
        | true =>
            apply doesBind (fun _ => client.Genuine)
            · exact doesMono (findDoes genuineTold) (fun _ => id) fun r s fact => by cases r <;> exact fact.1
            · exact rest
        | false => exact rest none
      · apply whenOursDoes
        intro claimed
        apply handlesReporting
        apply preparedDoes genuineTold
        exact fun _ => preparedDoes genuineTold fun hasSecret => settleCreatedDoes

theorem updateOIDCClientDoes {forced : Bool} :
    Handles own filter n client.Genuine (ClientOperator.updateOIDCClient own forced client) := by
  unfold ClientOperator.updateOIDCClient
  apply changedDoes _ genuineTold
  intro changed
  split
  · exact doesPure genuineTold fun _ _ => trivial
  · apply whenOursDoes
    intro client
    apply handlesReporting
    apply doesBind (fun _ => client.Genuine)
    · unfold ClientOperator.assertValidClaimMappings
      split
      · exact doesPure genuineTold fun _ => id
      · exact doesThrow genuineTold fun _ => id
    · intro _
      apply preparedDoes genuineTold
      intro _
      split
      · exact disableDoes (by assumption)
      · apply preparedDoes genuineTold
        exact fun _ => preparedDoes genuineTold fun _ => storeDoes

theorem createOIDCMiddlewareClientDoes :
    Handles own filter n client.Genuine (ClientOperator.createOIDCMiddlewareClient own client) := by
  unfold ClientOperator.createOIDCMiddlewareClient
  apply registerDoes _ genuineTold
  apply whenOursDoes
  intro client
  apply handlesReporting
  apply preparedDoes genuineTold
  intro _
  split
  · exact disableDoes (by assumption)
  · exact storeDoes

theorem updateOIDCMiddlewareClientDoes :
    Handles own filter n client.Genuine (ClientOperator.updateOIDCMiddlewareClient own client) := by
  unfold ClientOperator.updateOIDCMiddlewareClient
  apply changedDoes _ genuineTold
  intro changed
  split
  · exact doesPure genuineTold fun _ _ => trivial
  · apply whenOursDoes
    intro client
    apply handlesReporting
    split
    · exact disableDoes (by assumption)
    · apply preparedDoes genuineTold
      exact fun _ => preparedDoes genuineTold fun _ => storeDoes

theorem deleteOIDCClientDoes :
    Handles own filter n (fun s => Absent s client.reference client.seen) (ClientOperator.deleteOIDCClient own client) := by
  unfold ClientOperator.deleteOIDCClient
  apply doesAny absentTold
  · exact fun s _ _ _ => rememberTends
  · intro _
    split
    · exact doesPure absentTold fun _ _ => trivial
    · apply doesTryCatch (fun s => Absent s client.reference client.seen)
      · exact doesMono (handledDoes absentTold fun _ => id) (fun _ => id) fun r s fact => by
          cases r with
          | ok _ => trivial
          | error _ => exact fact
      · exact fun _ => doesPure absentTold fun _ _ => trivial

theorem eventDoes {event : WatchEvent} : Handles own filter n event.Genuine (event.handler own) := by
  cases event with
  | added client =>
      simp only [WatchEvent.handler]
      split
      · exact createOIDCClientDoes
      · exact createOIDCMiddlewareClientDoes
  | modified client =>
      simp only [WatchEvent.handler]
      split
      · exact updateOIDCClientDoes
      · exact updateOIDCMiddlewareClientDoes
  | deleted client => exact deleteOIDCClientDoes

theorem readTends {s : ClientWorld} {reference : Reference} (valid : s.Valid filter) :
    (Tends filter n s (answerClients own filter.inside n () (.get reference) s).2 ∧
      Elapsed filter n s (answerClients own filter.inside n () (.get reference) s).2) ∧
      match (answerClients own filter.inside n () (.get reference) s).1 with
      | .failed => True
      | .found client => client.Genuine (answerClients own filter.inside n () (.get reference) s).2
      | .absent seen => Absent (answerClients own filter.inside n () (.get reference) s).2 reference seen ∧
          reference ∈ (answerClients own filter.inside n () (.get reference) s).2.confirmed n := by
  cases outcome : s.outcome with
  | applied =>
      cases stored : s.resource reference with
      | some resource =>
          simp only [answerClients,outcome,stored]
          exact ⟨tendsSelf s,storedGenuine valid stored⟩
      | none =>
          simp only [answerClients,outcome,stored]
          refine ⟨missedTends,⟨le_refl _,fun at_ enabled => ?_⟩,by simp [ClientWorld.missed]⟩
          have enabled : s.enabledSince reference = some at_ := enabled
          unfold ClientWorld.enabledSince at enabled
          rw [stored] at enabled
          cases enabled
  | refused =>
      simp only [answerClients,outcome]
      exact ⟨tendsSelf s,trivial⟩
  | unanswered =>
      simp only [answerClients,outcome]
      exact ⟨tendsSelf s,trivial⟩

theorem reconcileClientByNameDoes {reference : Reference} :
    Handles own filter n (fun _ => True) (ClientOperator.reconcileClientByName own reference) := by
  unfold ClientOperator.reconcileClientByName
  apply doesAsk (fun (answer : ClientReading) s => ∀ client, answer = .found client → client.Genuine s) (fun _ _ _ => id)
  · intro s valid _ _
    obtain ⟨tends,shown⟩ := readTends valid
    refine ⟨tends.1,fun client found => ?_⟩
    rw [found] at shown
    exact shown
  · intro (answer : ClientReading)
    have told : Told filter n fun s => ∀ client, answer = .found client → client.Genuine s :=
      fun s t moved genuine client found => genuineTold s t moved (genuine client found)
    cases answer with
    | found client => exact doesMono updateOIDCClientDoes (fun s genuine => genuine client rfl) fun _ _ => id
    | failed => exact doesPure told fun _ _ => trivial
    | absent seen => exact doesPure told fun _ _ => trivial

end Handlers

def Listing (filter : NamespaceFilter) (n : Nat) (live : List String) (kind : ClientKind) (s : ClientWorld) : Prop :=
  ∃ references, s.listed n kind = some references ∧
    ∀ reference ∈ references, filter.matching reference.clientNamespace = true → reference.clientId ∈ live

section Sweeps
variable {own : String} {filter : NamespaceFilter} {n : Nat} {live : List String}

theorem listedTold {kind : ClientKind} : Told filter n (Listing filter n live kind) :=
  fun _ _ moved ⟨references,shown,within⟩ => ⟨references,moved.listed ▸ shown,within⟩

theorem shownTold {kinds : List ClientKind} {shown : ClientKind → Option (List Reference)} :
    Told filter n fun s => ∀ kind ∈ kinds, s.listed n kind = shown kind :=
  fun _ _ moved before kind inside => moved.listed ▸ before kind inside

theorem listedMono {more : List String} {kind : ClientKind} {s : ClientWorld} (inside : ∀ id ∈ live, id ∈ more)
    (listed : Listing filter n live kind s) : Listing filter n more kind s := by
  obtain ⟨references,shown,within⟩ := listed
  exact ⟨references,shown,fun reference there scope => inside _ (within reference there scope)⟩

theorem eachTold {kinds : List ClientKind} : Told filter n fun s => ∀ kind ∈ kinds, Listing filter n live kind s :=
  fun s t moved listed kind inside => listedTold s t moved (listed kind inside)

theorem listLiveClientIdsDoes {kinds : List ClientKind} (done : List ClientKind) (shown : ClientKind → Option (List Reference))
    (apart : ∀ kind ∈ done, kind ∉ kinds) (distinct : kinds.Nodup) :
    Does own filter n (fun s => ∀ kind ∈ done, s.listed n kind = shown kind)
      (ClientRedisReconciler.listLiveClientIds filter kinds) fun r s => ∀ live, r = .ok (some live) →
        (∀ kind ∈ done, s.listed n kind = shown kind) ∧ ∀ kind ∈ kinds, Listing filter n live kind s := by
  induction kinds generalizing done shown with
  | nil => exact doesPure shownTold fun s before live _ => ⟨before,fun kind never => by cases never⟩
  | cons kind rest ih =>
      obtain ⟨fresh,distinct⟩ := List.nodup_cons.mp distinct
      apply doesAsk (fun references s => ∀ k ∈ kind :: done, s.listed n k = if k = kind then references else shown k) shownTold
      · intro s _ before _
        refine ⟨shownTends,fun k inside => ?_⟩
        simp only [answerClients,ClientWorld.shown,true_and]
        split
        · rfl
        · rename_i other
          exact before k ((List.mem_cons.mp inside).resolve_left other)
      · intro references
        cases references with
        | none => exact doesPure shownTold fun s _ live same => by cases same
        | some clients =>
            apply doesBind (fun more s => ∀ live, more = some live →
              (∀ k ∈ kind :: done, s.listed n k = if k = kind then some clients else shown k) ∧
                ∀ k ∈ rest, Listing filter n live k s)
            · apply doesMono (ih (kind :: done) (fun k => if k = kind then some clients else shown k) ?_ distinct) (fun _ => id)
              · intro r s ends
                cases r with
                | ok more => exact fun live same => ends live (by rw [same])
                | error e => exact fun live same => by cases same
              · intro k inside
                rcases List.mem_cons.mp inside with rfl | before
                · exact fresh
                · exact fun later => apart k before (List.mem_cons_of_mem _ later)
            · intro more
              have told : Told filter n fun s => ∀ live, more = some live →
                  (∀ k ∈ kind :: done, s.listed n k = if k = kind then some clients else shown k) ∧
                    ∀ k ∈ rest, Listing filter n live k s := fun s t moved holds live same =>
                ⟨shownTold s t moved (holds live same).1,eachTold s t moved (holds live same).2⟩
              refine doesPure told fun s ends live same => ?_
              obtain ⟨live,found,rfl⟩ := Option.map_eq_some_iff.mp (Except.ok.inj same)
              obtain ⟨before,later⟩ := ends live found
              refine ⟨fun k inside => ?_,fun k inside => ?_⟩
              · rw [before k (List.mem_cons_of_mem _ inside),if_neg]
                rintro rfl
                exact apart k inside List.mem_cons_self
              · rcases List.mem_cons.mp inside with rfl | inside
                · refine ⟨clients,by rw [before k List.mem_cons_self,if_pos rfl],fun reference there scope => ?_⟩
                  exact List.mem_append_left _ (List.mem_map_of_mem (List.mem_filter.mpr ⟨there,scope⟩))
                · exact listedMono (fun id => List.mem_append_right _) (later k inside)

theorem sweptTwice : ClientRedisReconciler.sweptKinds.Nodup := by decide

theorem sweptAll (kind : ClientKind) : kind ∈ ClientRedisReconciler.sweptKinds := by
  cases kind <;> simp [ClientRedisReconciler.sweptKinds]

def BothListed (filter : NamespaceFilter) (n : Nat) (live : List String) (s : ClientWorld) : Prop := ∀ kind, Listing filter n live kind s

theorem liveTold : Told filter n (BothListed filter n live) := fun s t moved listed kind => listedTold s t moved (listed kind)

theorem orphanJustified {s : ClientWorld} {record : ClientRecord} {reference : Reference} (listed : BothListed filter n live s)
    (orphan : reference.clientId ∉ live) (its : record.reference = some reference)
    (scope : filter.matching reference.clientNamespace = true) (confirmed : reference ∈ s.confirmed n) :
    Removal.Justified filter ⟨record,s.listed n,s.confirmed n⟩ := by
  refine ⟨reference,its,scope,fun kind => ?_,confirmed⟩
  obtain ⟨references,shown,within⟩ := listed kind
  exact ⟨references,shown,fun there => orphan (within reference there scope)⟩

theorem removeOrphanDoes {key : String} : Does own filter n (BothListed filter n live)
    (ClientRedisReconciler.removeOrphan filter live key) fun _ => BothListed filter n live := by
  unfold ClientRedisReconciler.removeOrphan
  split
  · exact doesPure liveTold fun _ => id
  · rename_i unlisted
    have orphan : key ∉ live := fun inside => unlisted (List.contains_iff_mem.mpr inside)
    apply doesBind (fun found s => BothListed filter n live s ∧ ∀ record reference, found = some record →
      record.reference = some reference → key = reference.clientId)
    · apply doesMono (findDoes liveTold) (fun _ => id)
      intro r s ends
      cases r with
      | ok found => exact ⟨ends.1,ends.2 found rfl⟩
      | error e => exact ends.1
    · intro found
      have told (P : Prop) : Told filter n fun s => BothListed filter n live s ∧ P := toldAnd liveTold fun _ _ _ => id
      cases found with
      | none =>
          apply doesBind (fun _ => BothListed filter n live)
          · apply doesMono (destroyDoes liveTold ?_ ?_) (fun s => And.left)
            · intro r s fact
              cases r <;> exact fact
            · intro s _ reference seen basis
              cases basis
            · intro s _ record reference seen _ _ basis
              cases basis
          · exact fun _ => doesPure liveTold fun _ => id
      | some record =>
          simp only
          cases its : record.reference with
          | none => exact doesPure (told _) fun s => And.left
          | some reference =>
              simp only
              split
              · exact doesPure (told _) fun s => And.left
              · rename_i inScope
                have scope : filter.matching reference.clientNamespace = true := by simpa using inScope
                apply doesAsk (fun (answer : ClientReading) s => (BothListed filter n live s ∧ key = reference.clientId) ∧
                  ∀ seen, answer = .absent seen → Absent s reference seen ∧ reference ∈ s.confirmed n) (told _)
                · intro s valid fact _
                  obtain ⟨⟨tends,elapsed⟩,read⟩ := readTends valid
                  refine ⟨tends,⟨liveTold _ _ elapsed fact.1,fact.2 record reference rfl its⟩,fun seen answer => ?_⟩
                  rw [answer] at read
                  exact read
                · intro (answer : ClientReading)
                  have confirmed : Told filter n fun s => (BothListed filter n live s ∧ key = reference.clientId) ∧
                      ∀ seen, answer = .absent seen → Absent s reference seen ∧ reference ∈ s.confirmed n :=
                    toldAnd (told _) fun s t moved holds seen same =>
                      ⟨absentTold s t moved (holds seen same).1,moved.confirmed reference (holds seen same).2⟩
                  cases answer with
                  | failed => exact doesPure confirmed fun s fact => fact.1.1
                  | found client => exact doesPure confirmed fun s fact => fact.1.1
                  | absent seen =>
                      apply doesBind (fun _ => BothListed filter n live)
                      · apply doesMono (destroyDoes confirmed ?_ ?_) (fun _ => id)
                        · intro r s fact
                          cases r <;> exact fact.1.1
                        · intro s fact other at_ basis
                          cases Option.some.inj basis
                          exact (fact.2 seen rfl).1
                        · intro s fact record other at_ _ _ basis its
                          cases Option.some.inj basis
                          obtain ⟨⟨listed,same⟩,missed⟩ := fact
                          exact orphanJustified listed (same ▸ orphan) its scope (missed seen rfl).2
                      · exact fun _ => doesPure liveTold fun _ => id

theorem removeOrphansDoes {keys : List String} : Does own filter n (BothListed filter n live)
    (ClientRedisReconciler.removeOrphans filter live keys) fun _ => BothListed filter n live := by
  induction keys with
  | nil => exact doesPure liveTold fun _ => id
  | cons key rest ih =>
      unfold ClientRedisReconciler.removeOrphans
      apply doesBind (fun _ => BothListed filter n live)
      · exact doesMono removeOrphanDoes (fun _ => id) fun r s fact => by cases r <;> exact fact
      · intro removed
        apply doesBind (fun _ => BothListed filter n live)
        · exact doesMono ih (fun _ => id) fun r s fact => by cases r <;> exact fact
        · exact fun _ => doesPure liveTold fun _ => id

theorem sweepDoes : Handles own filter n (fun _ => True) (ClientPool.sweeping filter) := by
  unfold ClientPool.sweeping
  have sweeps : Does own filter n (fun _ => True) (ClientRedisReconciler.sweep filter) fun _ _ => True := by
    unfold ClientRedisReconciler.sweep
    apply doesBind (fun answer s => ∀ live, answer = some live → BothListed filter n live s)
    · apply doesMono (listLiveClientIdsDoes [] (fun _ => none) (fun kind never => by cases never) sweptTwice)
        (fun s _ kind never => by cases never)
      intro r s ends
      cases r with
      | ok answer => exact fun live same kind => (ends live (by rw [same])).2 kind (sweptAll kind)
      | error e => trivial
    · intro answer
      cases answer with
      | none => exact doesPure (fun s t _ _ live same => by cases same) fun _ _ => trivial
      | some live =>
          have told : Told filter n fun s => ∀ l, some live = some l → BothListed filter n l s :=
            fun s t moved holds l same => liveTold s t moved (holds l same)
          apply doesAny told
          · exact fun s _ _ _ => tendsSelf s
          · intro (members : Option (List String))
            apply doesBind (fun _ => BothListed filter n live)
            · apply doesMono (orClosedDoes (G := fun _ => BothListed filter n live) told fun ids s _ fact => fact live rfl) (fun _ => id)
              intro r s fact
              cases r with
              | ok ids => exact fact.2 ids rfl
              | error e => trivial
            · exact fun ids => doesMono removeOrphansDoes (fun _ => id) fun _ _ _ => trivial
  apply doesBind (fun _ _ => True)
  · exact doesMono sweeps (fun _ => id) fun r s _ => by cases r <;> trivial
  · exact fun _ => doesPure (fun _ _ _ => id) fun _ => id

end Sweeps

namespace ClientPool

structure Keeping (own : String) (filter : NamespaceFilter) (pool : ClientPool) : Prop where
  steady : pool.Steady (answerClients own filter.inside) ClientCall.awaits (tending filter)
  valid : pool.state.Valid filter

variable {own : String} {filter : NamespaceFilter} {pool : ClientPool}

theorem startKeeping {thread : Clients Unit} {F : ClientWorld → Prop} (keeping : Keeping own filter pool)
    (handles : Handles own filter pool.threads.length F thread) (fact : F pool.state) :
    Keeping own filter (start own filter thread pool) := by
  have keeps : Keeps (answerClients own filter.inside pool.threads.length) ClientCall.awaits (tending filter pool.threads.length)
      thread (fun _ => (tending filter pool.threads.length).guarantee) pool.state pool.state := by
    apply soundKeeps _ (tendsSelf pool.state).1 (handles pool.state ⟨keeping.valid,fact⟩)
    intro c instant s t tends
    refine ⟨elapsedSelf t,?_,fun u further => tendsTrans tends further⟩
    cases c with
    | write write => cases instant
    | _ => trivial
  obtain ⟨steady,tends⟩ := Pool.steadySpawn (fun _ _ _ _ => elapsedTrans) tendsElapsed keeping.steady keeps
  exact ⟨steady,tends.valid keeping.valid⟩

theorem editKeeping {f : ClientWorld → ClientWorld} (keeping : Keeping own filter pool) (drift : Drift filter pool.state (f pool.state))
    (listed : (f pool.state).listed = pool.state.listed) (confirmed : (f pool.state).confirmed = pool.state.confirmed) :
    Keeping own filter (pool.edit f) := by
  have elapsed (n : Nat) : Elapsed filter n pool.state (f pool.state) := (driftTends drift listed confirmed).2
  exact ⟨Pool.steadyEdit (fun _ _ _ _ => elapsedTrans) keeping.steady elapsed,drift.valid keeping.valid⟩

theorem stepKeeping {move : ClientMove} (keeping : Keeping own filter pool) (timely : InTime pool move) :
    Keeping own filter (step own filter pool move) := by
  cases move with
  | apply reference fingerprint valid disabled =>
      apply editKeeping (f := fun s => s.applied reference fingerprint valid disabled) keeping appliedDrift
      · unfold ClientWorld.applied
        simp only
        split <;> rfl
      · unfold ClientWorld.applied
        simp only
        split <;> rfl
  | remove reference =>
      apply editKeeping (f := fun s => s.removed reference) keeping removedDrift
      · unfold ClientWorld.removed
        split <;> rfl
      · unfold ClientWorld.removed
        split <;> rfl
  | replay reference =>
      apply editKeeping (f := fun s => s.replayed reference) keeping replayedDrift
      · unfold ClientWorld.replayed
        split <;> rfl
      · unfold ClientWorld.replayed
        split <;> rfl
  | handle event =>
      simp only [step]
      split
      · rename_i event found
        split
        · exact startKeeping keeping eventDoes (keeping.valid.events event (List.mem_of_getElem? found))
        · exact keeping
      · exact keeping
  | reconcile reference => exact startKeeping keeping reconcileClientByNameDoes trivial
  | sweep => exact startKeeping keeping sweepDoes trivial
  | proceed n outcome hasSecret =>
      have faced : Keeping own filter (facing outcome hasSecret pool) :=
        editKeeping keeping (driftSame rfl rfl rfl rfl rfl rfl) rfl rfl
      obtain ⟨steady,tends⟩ := Pool.steadyProceed (fun _ _ _ _ => elapsedTrans) tendsElapsed (w := ()) (elapsedSelf _)
        (tendsSelf _).1 faced.steady timely
      exact ⟨steady,tends.valid faced.valid⟩

theorem runKeeping {moves : List ClientMove} (keeping : Keeping own filter pool)
    (timely : EachStep (step own filter) InTime moves pool) : Keeping own filter (run own filter moves pool) :=
  eachStepKeeps (Keeping own filter) (fun _ _ => stepKeeping) keeping timely

theorem beginKeeping {start : ClientWorld} (begins : start.Begins) : Keeping own filter ⟨[],start⟩ := by
  refine ⟨Pool.steadyEmpty _,fun removal inside => ?_,begins.filed,begins.since,begins.wrote,begins.served,fun event inside => ?_⟩
  · have inside : removal ∈ start.removals := inside
    rw [begins.unswept] at inside
    cases inside
  · have inside : event ∈ start.events := inside
    rw [begins.untold] at inside
    cases inside

end ClientPool

/- In every run whose writes are in time, sweeps have been right about whatever they have removed, and every resource that
is enabled has the record its handlers have written. -/
theorem sweepsExact (own : String) (filter : NamespaceFilter) (start : ClientWorld) (begins : start.Begins)
    (moves : List ClientMove) (timely : EachStep (ClientPool.step own filter) ClientPool.InTime moves ⟨[],start⟩) :
    (∀ removal ∈ (ClientPool.run own filter moves ⟨[],start⟩).state.removals, removal.Justified filter) ∧
      (ClientPool.run own filter moves ⟨[],start⟩).state.Served := by
  have valid := (ClientPool.runKeeping (ClientPool.beginKeeping begins) timely).valid
  refine ⟨valid.justified,fun reference since enabled wrote => ?_⟩
  obtain ⟨record,stored,its,_⟩ := valid.served reference since enabled wrote
  exact ⟨record,stored,its⟩

def everywhere : NamespaceFilter := ⟨none,fun _ => true⟩

def webClient : Reference := ⟨"apps","web",.oidcClient⟩

def oldClient : Reference := ⟨"apps","old",.oidcClient⟩

def leftBehind (references : List Reference) : ClientWorld where
  records id := (references.find? fun reference => reference.clientId = id).map fun reference => ⟨some reference,0⟩
  clients := references.map Reference.clientId

theorem leftBehindBegins (references : List Reference) : (leftBehind references).Begins where
  unswept := rfl
  untold := rfl
  filed id record reference stored its := by
    obtain ⟨found,there,rfl⟩ := Option.map_eq_some_iff.mp stored
    cases Option.some.inj its
    have same := List.find?_some there
    exact (of_decide_eq_true same).symm
  since reference since enabled := by cases enabled
  wrote entry inside := by cases inside
  served reference since enabled := by cases enabled

def takes (n turns : Nat) : List ClientMove := List.replicate turns (.proceed n .applied true)

def recreatedMeanwhile : List ClientMove :=
  [.sweep] ++ takes 0 5 ++ [.apply webClient "1" true false,.handle 0] ++ takes 1 6 ++ takes 0 3

theorem recreatedLost : ¬ ∀ (own : String) (filter : NamespaceFilter) (start : ClientWorld), start.Begins →
    ∀ moves, (∀ removal ∈ (ClientPool.run own filter moves ⟨[],start⟩).state.removals, removal.Justified filter) ∧
      (ClientPool.run own filter moves ⟨[],start⟩).state.Served := by
  intro always
  obtain ⟨_,served⟩ := always "main" everywhere (leftBehind [webClient]) (leftBehindBegins _) recreatedMeanwhile
  have enabled : (ClientPool.run "main" everywhere recreatedMeanwhile ⟨[],leftBehind [webClient]⟩).state.enabledSince webClient =
      some 1 := by decide +kernel
  have wrote : (webClient,1) ∈ (ClientPool.run "main" everywhere recreatedMeanwhile ⟨[],leftBehind [webClient]⟩).state.wrote := by
    decide +kernel
  have lost : (ClientPool.run "main" everywhere recreatedMeanwhile ⟨[],leftBehind [webClient]⟩).state.records "apps.web" =
      none := by decide +kernel
  obtain ⟨record,stored,_⟩ := served webClient 1 enabled wrote
  have stored : (ClientPool.run "main" everywhere recreatedMeanwhile ⟨[],leftBehind [webClient]⟩).state.records "apps.web" =
      some record := stored
  rw [lost] at stored
  cases stored

def ClientWorld.clear (s : ClientWorld) : RedisWrite → Bool
  | .set client => (s.records client.clientId).isNone
  | .del id deletion => match s.records id with
      | none => true
      | some record => record.reference.isSome && deletion.basis.map Prod.fst = record.reference &&
          record.reference.all fun reference => (s.enabledSince reference).isNone
  | _ => true

namespace ClientPool

def clear (pool : ClientPool) : ClientMove → Bool
  | .proceed n _ _ => match pool.threads[n]? with
      | some (.call (.write write) _) => pool.state.clear write
      | _ => true
  | _ => true

theorem clearInTime {pool : ClientPool} {move : ClientMove} (clear : pool.clear move = true) : InTime pool move := by
  cases move with
  | proceed n outcome hasSecret =>
      show Pool.Ready (fun _ => Timely) n (facing outcome hasSecret pool)
      unfold Pool.Ready
      split
      · rename_i c next found
        have found : pool.threads[n]? = some (.call c next) := found
        cases c with
        | write write =>
            simp only [ClientPool.clear,found] at clear
            cases write with
            | set client =>
                refine .inr fun record reference stored => ?_
                have stored : pool.state.records client.clientId = some record := stored
                simp [ClientWorld.clear,stored] at clear
            | del id deletion =>
                refine .inr fun record stored => ?_
                have stored : pool.state.records id = some record := stored
                simp only [ClientWorld.clear,stored,Bool.and_eq_true,decide_eq_true_eq] at clear
                obtain ⟨⟨known,basis⟩,disabled⟩ := clear
                obtain ⟨reference,its⟩ := Option.isSome_iff_exists.mp known
                rw [its] at basis
                obtain ⟨⟨other,seen⟩,grounds,rfl⟩ := Option.map_eq_some_iff.mp basis
                refine ⟨fun _ => ⟨other,seen,grounds,its⟩,fun reference since same enabled => ?_⟩
                cases Option.some.inj (its.symm.trans same)
                have enabled : pool.state.enabledSince other = some since := enabled
                simp [its,enabled] at disabled
            | _ => trivial
        | _ => trivial
      · trivial
  | _ => trivial

def clearRun (own : String) (filter : NamespaceFilter) : List ClientMove → ClientPool → Bool
  | [], _ => true
  | move :: rest, pool => pool.clear move && clearRun own filter rest (step own filter pool move)

theorem clearTimely {own : String} {filter : NamespaceFilter} {moves : List ClientMove} {pool : ClientPool}
    (clear : clearRun own filter moves pool = true) : EachStep (step own filter) InTime moves pool := by
  induction moves generalizing pool with
  | nil => trivial
  | cons move rest ih =>
      simp only [clearRun,Bool.and_eq_true] at clear
      exact ⟨clearInTime clear.1,ih clear.2⟩

end ClientPool

def sweptAfterwards : List ClientMove :=
  [.apply webClient "1" true false,.handle 0] ++ takes 0 6 ++ [.sweep] ++ takes 1 8

theorem staleSwept : ∃ removal ∈ (ClientPool.run "main" everywhere sweptAfterwards ⟨[],leftBehind [oldClient]⟩).state.removals,
    removal.Justified everywhere ∧ ∃ record,
      (ClientPool.run "main" everywhere sweptAfterwards ⟨[],leftBehind [oldClient]⟩).state.records "apps.web" = some record ∧
        record.reference = some webClient := by
  have timely : ClientPool.clearRun "main" everywhere sweptAfterwards ⟨[],leftBehind [oldClient]⟩ = true := by decide +kernel
  obtain ⟨justified,served⟩ := sweepsExact "main" everywhere (leftBehind [oldClient]) (leftBehindBegins _) sweptAfterwards
    (ClientPool.clearTimely timely)
  have swept : (ClientPool.run "main" everywhere sweptAfterwards ⟨[],leftBehind [oldClient]⟩).state.removals ≠ [] := by
    have counted : (ClientPool.run "main" everywhere sweptAfterwards ⟨[],leftBehind [oldClient]⟩).state.removals.length = 1 := by
      decide +kernel
    exact fun none => by rw [none] at counted; cases counted
  have enabled : (ClientPool.run "main" everywhere sweptAfterwards ⟨[],leftBehind [oldClient]⟩).state.enabledSince webClient =
      some 1 := by decide +kernel
  have wrote : (webClient,1) ∈ (ClientPool.run "main" everywhere sweptAfterwards ⟨[],leftBehind [oldClient]⟩).state.wrote := by
    decide +kernel
  obtain ⟨removal,inside⟩ := List.exists_mem_of_ne_nil _ swept
  exact ⟨removal,inside,justified removal inside,served webClient 1 enabled wrote⟩

end Passmower
