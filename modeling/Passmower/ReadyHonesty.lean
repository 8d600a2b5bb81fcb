import Passmower.Passkeys
import Passmower.SecretConvergence

/-! What the operator reports of a client: a Ready condition that is true, and the Redis record at that moment. The events of
the client are handled one after another, and any call may fail. -/
namespace Passmower.ClientHandlers
open Resumption Program Encoding SecretData

structure Report where
  client : Client
  condition : ReadyCondition
  record : Option ClientRecord

/- The Secret and the record of the client, the Ingress it refers to, and the fingerprint the operator remembers; what has been
reported, and the client of the last report, if it says that all is well. -/
structure ReadyWorld where
  secret : Option SecretBytes := none
  record : Option ClientRecord := none
  ingress : Option Ingress := none
  fingerprint : Option (Nat × Option String) := none
  settled : Option Client := none
  reports : List Report := []

def zeros : Uuid := ⟨List.replicate 32 ⟨0,Nat.zero_lt_succ 15⟩,rfl⟩

structure Fate where
  outcome : PatchOutcome := .applied
  uuid : Uuid := zeros

instance : Inhabited Fate := ⟨{}⟩

namespace ReadyWorld
variable (s : ReadyWorld)

def carried : Effect → Bool × ReadyWorld
  | .patchSecret _ existing data => match s.secret with
      | some current => (true,{s with secret := some (patched existing data current)})
      | none => (false,s)
  | .set _ record => (true,{s with record := some record})
  | .del _ => (true,{s with record := none})
  | .createMiddleware _ | .patchMiddleware _ | .createJob _ _ | .sadd _ | .srem _ => (true,s)

def told (client : Client) : Option ReadyCondition → ReadyWorld
  | none => s
  | some condition =>
      {s with
        settled := if condition.status then some client else none
        reports := s.reports ++ [⟨client,condition,s.record⟩]}

end ReadyWorld

def Client.claimed (own : String) (client : Client) : Client :=
  {client with boundTo := some own, resourceVersion := client.resourceVersion + 1}

def answerReady (own : String) : Handler operatorCalls Fate ReadyWorld := fun w c s => match c with
  | .getIngress _ _ => (if w.outcome = .applied then s.ingress else none,s)
  | .getSecret _ => (if w.outcome = .applied then s.secret.bind readable? else none,s)
  | .createSecret _ data => match w.outcome, s.secret with
      | .applied, some _ => (.alreadyExists,s)
      | .applied, none => (.created,{s with secret := some (kept data)})
      | .unanswered, none => (.failed,{s with secret := some (kept data)})
      | .unanswered, some _ | .refused, _ => (.failed,s)
  | .attempt effect => match w.outcome with
      | .applied => s.carried effect
      | .refused => (false,s)
      | .unanswered => (false,(s.carried effect).2)
  | .replaceClientStatus client reported =>
      (if w.outcome = .applied then some (client.claimed own) else none,s.told client reported)
  | .find _ => (if w.outcome = .applied then some s.record else none,s)
  | .randomUUID => (w.uuid,s)
  | .isCurrent client => (s.fingerprint = some client.getReconcileFingerprint,s)
  | .register client => ((),{s with fingerprint := some client.getReconcileFingerprint})
  | .shouldReconcile client =>
      (s.fingerprint ≠ some client.getReconcileFingerprint,{s with fingerprint := some client.getReconcileFingerprint})
  | .unregister _ => ((),{s with fingerprint := none, settled := none})
  | .getMiddleware _ => (true,s)
  | .createEvent _ _ _ | .delay => ((),s)

structure Version (reference : Reference) where
  client : Client
  named : client.reference = reference
  kind : client.reference.clientKind = .oidcClient

inductive ReadyMove (reference : Reference) where
  | handle (type : EventType) (version : Version reference) (fates : List Fate)
  | change (ingress : Option Ingress)

section Reports
variable (settings : OperatorSettings)

def Recorded? (client : Client) (record : Option ClientRecord) : Prop :=
  ∃ secret, record = some ((client.setSecret secret).toRedis settings none)

def Report.Honest (report : Report) : Prop := report.condition.status = true →
  (report.condition.reason = "Reconciled" → Recorded? settings report.client report.record) ∧
    (report.condition.reason = "Disabled" → report.record = none)

def resolved? (ingress : Option Ingress) (client : Client) : Option Client :=
  match client.spec.ingressRef.filter (· ≠ "") with
  | none => some client
  | some _ =>
      if !settings.ingressDiscoveryEnabled then none
      else match resolveIngressRef settings.resolve ingress client.spec.redirectPaths with
        | some (.ok resolved) => some (client.setResolvedIngress resolved)
        | _ => none

def Client.Alike (a b : Client) : Prop :=
  ∀ secret, (a.setSecret secret).toRedis settings none = (b.setSecret secret).toRedis settings none

def Secretless (secret : Option SecretBytes) (client : Client) : Prop := client.usesClientSecret = false ∧
  ∃ stored, secret = some stored ∧ ((readBack stored).lookup clientSecretKey).any isTruthy = false

def ReadyWorld.Unwritten (s : ReadyWorld) (client : Client) : Prop :=
  (client.boundTo = some settings.own ∧ s.fingerprint = some client.getReconcileFingerprint ∧ s.record ≠ none) ∨
    Secretless s.secret client

def Client.ingressReads (client : Client) : Nat := if (client.spec.ingressRef.filter (· ≠ "")).isSome then 1 else 0

def ReadyWorld.callsBefore (s : ReadyWorld) (client : Client) : Nat :=
  (if client.boundTo = some settings.own then 0 else 1) + client.ingressReads +
    if client.boundTo = some settings.own ∧ s.fingerprint = some client.getReconcileFingerprint then 1 else 0

structure ReadyWorld.Leaves (s : ReadyWorld) (client : Client) (fates : List Fate) : Prop where
  enabled : client.isDisabled = false
  valid : validateClaimMappings client.spec.claimMappings = []
  ours : client.boundTo = some settings.own ∨ client.boundTo = none
  resolvable : (resolved? settings s.ingress client).isSome
  answered : ∀ fate ∈ (fates.drop 2).take (s.callsBefore settings client), fate.outcome = .applied
  unwritten : s.Unwritten settings client

def ReadyWorld.Settled (s : ReadyWorld) (client : Client) : Prop := ∃ settled, s.settled = some settled ∧
  settled.isDisabled = false ∧ ∀ resolved, resolved? settings s.ingress client = some resolved → resolved.Alike settings settled

namespace ReadyWorld
variable {reference : Reference}

def handler (client : Client) : EventType → Handling Unit
  | .added => createOIDCClient settings client
  | .modified => updateOIDCClient settings false client
  | .deleted => deleteOIDCClient settings client

def step (s : ReadyWorld) : ReadyMove reference → ReadyWorld
  | .handle type version fates => after (answerReady settings.own) (handler settings version.client type) fates s
  | .change ingress => {s with ingress := ingress}

def run (moves : List (ReadyMove reference)) (start : ReadyWorld) : ReadyWorld := moves.foldl (step settings) start

/- An ADDED that leaves the record of an enabled client as it is comes after a report that all is well with such a client. -/
def InOrder (s : ReadyWorld) : ReadyMove reference → Prop
  | .handle .added version fates => s.Leaves settings version.client fates → s.Settled settings version.client
  | _ => True

end ReadyWorld
end Reports

section Handlers
variable {settings : OperatorSettings} {client : Client} {a b c s t : ReadyWorld} {refreshOnlyIfChanged : Bool}

abbrev Ends {α : Type} (settings : OperatorSettings) (p : Handling α) (Q : Except HandlerError α → ReadyWorld → Prop)
    (s : ReadyWorld) : Prop := Alone (answerReady settings.own) (fun _ _ => True) (fun _ _ => True) p Q s

theorem endsAsk {α : Type} {c : OperatorCall} {f : OperatorAnswer c → Handling α}
    {Q : Except HandlerError α → ReadyWorld → Prop}
    (rest : ∀ w, Ends settings (f (answerReady settings.own w c s).1) Q (answerReady settings.own w c s).2) :
    Ends settings (ask (I := operatorCalls) c >>= f) Q s :=
  (aloneAsk (I := operatorCalls) c f Q s).mpr fun _ w => ⟨trivial,rest w⟩

structure Aside (a b : ReadyWorld) : Prop where
  record : b.record = a.record
  ingress : b.ingress = a.ingress
  settled : b.settled = a.settled
  reports : b.reports = a.reports

theorem asideRefl (s : ReadyWorld) : Aside s s := ⟨rfl,rfl,rfl,rfl⟩

theorem mustEnds (effect : Effect) (error : HandlerError) : Ends settings (must effect error)
    (fun r t => (t = s ∨ t = (s.carried effect).2) ∧ (r = .ok () → t = (s.carried effect).2)) s := by
  refine endsAsk fun w => ?_
  unfold answerReady
  cases w.outcome with
  | applied =>
      dsimp only
      split
      · exact (alonePure _ _ _).mpr ⟨.inr rfl,fun _ => rfl⟩
      · exact (aloneThrow _ _ _).mpr ⟨.inr rfl,fun never => by cases never⟩
  | refused => exact (aloneThrow _ _ _).mpr ⟨.inl rfl,fun never => by cases never⟩
  | unanswered => exact (aloneThrow _ _ _).mpr ⟨.inr rfl,fun never => by cases never⟩

theorem patchAside (reference : Reference) (existing : Parsed) (data : Sent) :
    Aside s (s.carried (.patchSecret reference existing data)).2 := by
  simp only [ReadyWorld.carried]
  split
  · exact ⟨rfl,rfl,rfl,rfl⟩
  · exact asideRefl s

theorem jobEnds : Ends settings (reconcileRefreshJob client) (fun _ t => t = s) s := by
  unfold reconcileRefreshJob
  split
  · exact (alonePure _ _ _).mpr rfl
  · exact soundMono (mustEnds _ _) fun r t ended => ended.1.elim id id

theorem patchEnds (existing : Parsed) : Ends settings (patchKubeSecret settings client existing refreshOnlyIfChanged)
    (fun r t => Aside s t ∧ ∀ done, r = .ok done → done = client) s := by
  unfold patchKubeSecret secretData
  split
  · rw [pureBind]
    refine aloneBind (soundMono (mustEnds _ _) ?_)
    intro r t ended
    have aside : Aside s t := by
      rcases ended.1 with rfl | rfl
      · exact asideRefl _
      · exact patchAside _ _ _
    cases r with
    | error e => exact ⟨aside,fun done never => by cases never⟩
    | ok _ =>
        rw [thenOk]
        split
        · refine aloneBind (soundMono jobEnds ?_)
          rintro r _ rfl
          cases r with
          | error e => exact ⟨aside,fun done never => by cases never⟩
          | ok _ =>
              rw [thenOk]
              exact (alonePure _ _ _).mpr ⟨aside,fun done same => (Except.ok.inj same).symm⟩
        · exact (alonePure _ _ _).mpr ⟨aside,fun done same => (Except.ok.inj same).symm⟩
  · refine (aloneThrow _ _ _).mpr ?_
    exact ⟨asideRefl s,fun done never => by cases never⟩

def Reconciled (client : Client) (s : ReadyWorld) (r : Except HandlerError Client) (t : ReadyWorld) : Prop :=
  Aside s t ∧ ∀ done, r = .ok done → ∃ secret, done = client.setSecret secret ∧
    (secret.any isTruthy = true ∨ Secretless s.secret client)

theorem adoptEnds {existing : Parsed} {stored : SecretBytes} (found : s.secret = some stored)
    (read : readBack stored = existing) :
    Ends settings (adoptKubeSecret settings client existing refreshOnlyIfChanged) (Reconciled client s) s := by
  unfold adoptKubeSecret
  by_cases taken : ((existing.lookup clientSecretKey).any isTruthy || !client.usesClientSecret) = true
  · dsimp only
    rw [if_pos taken,pureBind]
    refine soundMono (patchEnds existing) ?_
    rintro r t ⟨aside,same⟩
    refine ⟨aside,fun done ended => ⟨_,same done ended,?_⟩⟩
    cases truthy : (existing.lookup clientSecretKey).any isTruthy with
    | true => exact .inl rfl
    | false =>
        rw [truthy,Bool.false_or] at taken
        exact .inr ⟨by simpa using taken,stored,found,by rw [read]; exact truthy⟩
  · dsimp only
    rw [if_neg taken]
    unfold generateSecret
    rw [bindAssoc]
    refine endsAsk fun w => ?_
    rw [pureBind]
    refine soundMono (patchEnds existing) ?_
    rintro r t ⟨aside,same⟩
    refine ⟨aside,fun done ended => ⟨_,same done ended,.inl ?_⟩⟩
    exact decide_eq_true (uuidPlain w.uuid).2

theorem readFound {w : Fate} {existing : Parsed}
    (answered : (if w.outcome = .applied then s.secret.bind readable? else none) = some existing) :
    ∃ stored, s.secret = some stored ∧ readBack stored = existing := by
  split at answered
  · obtain ⟨stored,found,read⟩ := Option.bind_eq_some_iff.mp answered
    unfold readable? at read
    split at read
    · cases read
    · exact ⟨stored,found,Option.some.inj read⟩
  · cases answered

theorem createCases {w : Fate} {reference : Reference} {data : Sent} :
    answerReady settings.own w (.createSecret reference data) s = (.created,{s with secret := some (kept data)}) ∨
      (∃ stored, s.secret = some stored ∧ answerReady settings.own w (.createSecret reference data) s = (.alreadyExists,s)) ∨
      ∃ t, Aside s t ∧ answerReady settings.own w (.createSecret reference data) s = (.failed,t) := by
  cases outcome : w.outcome with
  | applied =>
      cases found : s.secret with
      | some stored => exact .inr (.inl ⟨stored,rfl,by simp only [answerReady,outcome,found]⟩)
      | none => exact .inl (by simp only [answerReady,outcome,found])
  | refused => exact .inr (.inr ⟨s,asideRefl s,by simp only [answerReady,outcome]⟩)
  | unanswered =>
      cases found : s.secret with
      | some stored => exact .inr (.inr ⟨s,asideRefl s,by simp only [answerReady,outcome,found]⟩)
      | none =>
          have aside : Aside s {s with secret := some (kept data)} := ⟨rfl,rfl,rfl,rfl⟩
          exact .inr (.inr ⟨_,aside,by simp only [answerReady,outcome,found]⟩)

theorem failedReconcile {e : HandlerError} (aside : Aside s t) : Reconciled client s (.error e) t :=
  ⟨aside,fun done never => by cases never⟩

theorem reconcileEnds : Ends settings (reconcileClientSecret settings client refreshOnlyIfChanged) (Reconciled client s) s := by
  unfold reconcileClientSecret
  refine endsAsk fun w => ?_
  have read (w : Fate) (reference : Reference) (t : ReadyWorld) :
      answerReady settings.own w (.getSecret reference) t =
        (if w.outcome = .applied then t.secret.bind readable? else none,t) := rfl
  rw [read]
  cases answered : if w.outcome = .applied then s.secret.bind readable? else none with
  | some existing =>
      obtain ⟨stored,found,same⟩ := readFound answered
      exact adoptEnds found same
  | none =>
      unfold generateSecret secretData
      dsimp only
      rw [bindAssoc]
      refine endsAsk fun w => ?_
      rw [pureBind]
      split
      · rw [pureBind]
        refine endsAsk fun fate => ?_
        have drawn (t : ReadyWorld) (aside : Aside s t) : Reconciled client s
            (.ok (client.setSecret (some (.string w.uuid.text)))) t :=
          ⟨aside,fun done same => ⟨_,(Except.ok.inj same).symm,.inl (decide_eq_true (uuidPlain w.uuid).2)⟩⟩
        have stays : (answerReady settings.own w .randomUUID s).2 = s := rfl
        rw [stays]
        rcases @createCases settings s fate _ _ with created | ⟨stored,found,exists_⟩ | ⟨t,aside,failed⟩
        · rw [created]
          refine aloneBind (soundMono jobEnds ?_)
          rintro r _ rfl
          cases r with
          | error e => exact failedReconcile ⟨rfl,rfl,rfl,rfl⟩
          | ok _ =>
              rw [thenOk]
              exact (alonePure _ _ _).mpr (drawn _ ⟨rfl,rfl,rfl,rfl⟩)
        · rw [exists_]
          refine endsAsk fun w => ?_
          rw [read]
          cases answered : if w.outcome = .applied then s.secret.bind readable? else none with
          | none => exact (aloneThrow _ _ _).mpr (failedReconcile (asideRefl s))
          | some existing =>
              obtain ⟨stored,found,same⟩ := readFound answered
              exact adoptEnds found same
        · rw [failed]
          exact (aloneThrow _ _ _).mpr (failedReconcile aside)
      · exact (aloneThrow _ _ _).mpr (failedReconcile (asideRefl s))

theorem upsertEnds {id : String} {record : ClientRecord} : Ends settings (ClientRedis.upsert id record)
    (fun r t => t.reports = s.reports ∧ (r = .ok () → t.record = some record)) s := by
  unfold ClientRedis.upsert
  refine aloneBind (soundMono (mustEnds _ _) ?_)
  rintro r t ⟨moved,done⟩
  have reports : t.reports = s.reports := by
    rcases moved with rfl | rfl <;> rfl
  cases r with
  | error e => exact ⟨reports,fun never => by cases never⟩
  | ok _ =>
      have stored : t.record = some record := by
        rw [done rfl]
        rfl
      refine soundMono (mustEnds _ _) ?_
      rintro r u ⟨moved,_⟩
      have same : u = t := by
        rcases moved with rfl | rfl <;> rfl
      rw [same]
      exact ⟨reports,fun _ => stored⟩

theorem destroyEnds {id : String} : Ends settings (ClientRedis.destroy id)
    (fun r t => t.reports = s.reports ∧ t.settled = s.settled ∧ (r = .ok () → t.record = none)) s := by
  unfold ClientRedis.destroy ClientRedis.find
  rw [bindAssoc]
  refine endsAsk fun w => ?_
  have stays : (answerReady settings.own w (.find id) s).2 = s := rfl
  rw [stays]
  split
  · rw [pureBind]
    refine aloneBind (soundMono (mustEnds _ _) ?_)
    rintro r t ⟨moved,done⟩
    have same : t.reports = s.reports ∧ t.settled = s.settled := by
      rcases moved with rfl | rfl <;> exact ⟨rfl,rfl⟩
    cases r with
    | error e => exact ⟨same.1,same.2,fun never => by cases never⟩
    | ok _ =>
        have gone : t.record = none := by
          rw [done rfl]
          rfl
        refine soundMono (mustEnds _ _) ?_
        rintro r u ⟨moved,_⟩
        have stays : u = t := by
          rcases moved with rfl | rfl <;> rfl
        rw [stays]
        exact ⟨same.1,same.2,fun _ => gone⟩
  · refine (aloneThrow _ _ _).mpr ?_
    exact ⟨rfl,rfl,fun never => by cases never⟩

variable (settings) in
def Sincere (s : ReadyWorld) : Prop := ∀ report ∈ s.reports, report.Honest settings

variable (settings) in
def Borne (s : ReadyWorld) : Prop := ∀ settled, s.settled = some settled → settled.isDisabled = false →
  Recorded? settings settled s.record

variable (settings) in
def Told (r : Except HandlerError Unit) (t : ReadyWorld) : Prop := Sincere settings t ∧ (r = .ok () → Borne settings t)

theorem sincereSame (sincere : Sincere settings s) (reports : t.reports = s.reports) : Sincere settings t := by
  unfold Sincere
  rw [reports]
  exact sincere

theorem toldSincere {condition : ReadyCondition} (sincere : Sincere settings s)
    (honest : Report.Honest settings ⟨client,condition,s.record⟩) : Sincere settings (s.told client (some condition)) := by
  intro report inside
  rcases List.mem_append.mp inside with old | new
  · exact sincere report old
  · cases List.mem_singleton.mp new
    exact honest

theorem readyEnds {reason message : String} (sincere : Sincere settings s)
    (disabled : reason = "Disabled" → s.record = none)
    (enabled : reason = "Reconciled" ∨ client.isDisabled = false → Recorded? settings client s.record) :
    Ends settings (reportReady client reason message) (Told settings) s := by
  have told : Sincere settings (s.told (client.updateReadyCondition ⟨true,reason,message⟩).2 (some ⟨true,reason,message⟩)) :=
    toldSincere sincere fun _ => ⟨fun same => enabled (.inl same),disabled⟩
  have borne : Borne settings (s.told (client.updateReadyCondition ⟨true,reason,message⟩).2 (some ⟨true,reason,message⟩)) := by
    intro settled same on
    cases Option.some.inj same
    exact enabled (.inr on)
  unfold reportReady replaceClientStatus
  refine endsAsk fun w => ?_
  split
  · exact (aloneCall _ _ _ _).mpr fun _ w => ⟨trivial,(alonePure _ _ _).mpr ⟨told,fun _ => borne⟩⟩
  · exact (alonePure _ _ _).mpr ⟨told,fun _ => borne⟩

variable (settings) in
def Faithful (s : ReadyWorld) : Prop := Sincere settings s ∧ Borne settings s

theorem failureEnds {error : HandlerError} (sincere : Sincere settings s) :
    Ends settings (reportFailure client error) (fun _ t => Faithful settings t) s := by
  unfold reportFailure replaceClientStatus
  refine endsAsk fun w => ?_
  have told (client : Client) (reason message : String) : Faithful settings
      (answerReady settings.own w (.replaceClientStatus client (some ⟨false,reason,message⟩)) s).2 := by
    refine ⟨toldSincere sincere fun never => ?_,fun settled same => ?_⟩
    · cases never
    · cases same
  split
  · exact (aloneCall _ _ _ _).mpr fun _ _ => ⟨trivial,(alonePure _ _ _).mpr (told _ _ _)⟩
  · exact (alonePure _ _ _).mpr (told _ _ _)

theorem storeEnds (sincere : Sincere settings s) :
    Ends settings (store settings client none) (Told settings) s := by
  refine aloneBind (soundMono upsertEnds ?_)
  rintro r t ⟨reports,stored⟩
  have sincere := sincereSame sincere reports
  cases r with
  | error e => exact ⟨sincere,fun never => by cases never⟩
  | ok _ =>
      exact readyEnds sincere (fun never => absurd never (by decide)) fun _ => ⟨client.clientSecret,stored rfl⟩

theorem disableEnds (sincere : Sincere settings s) (disabled : client.isDisabled = true) :
    Ends settings (disable client) (Told settings) s := by
  refine aloneBind (soundMono destroyEnds ?_)
  rintro r t ⟨reports,_,gone⟩
  have sincere := sincereSame sincere reports
  cases r with
  | error e => exact ⟨sincere,fun never => by cases never⟩
  | ok _ =>
      refine readyEnds sincere (fun _ => gone rfl) fun enabled => ?_
      rcases enabled with never | enabled
      · exact absurd never (by decide)
      · exact absurd (disabled.symm.trans enabled) (by decide)

theorem settleEnds (sincere : Sincere settings s)
    (known : client.isDisabled = false → client.hasSecret = false → Recorded? settings client s.record) :
    Ends settings (settleCreated settings client) (Told settings) s := by
  unfold settleCreated
  split
  · rename_i disabled
    exact disableEnds sincere disabled
  · rename_i enabled
    split
    · exact storeEnds sincere
    · rename_i none
      have found := known (by simpa using enabled) (by simpa using none)
      exact readyEnds sincere (fun never => absurd never (by decide)) fun _ => found

theorem addedEnds (sincere : Sincere settings s)
    (known : client.isDisabled = false → Secretless s.secret client → Recorded? settings client s.record) :
    Ends settings (reconcileAdded settings client refreshOnlyIfChanged) (Told settings) s := by
  refine aloneBind (soundMono reconcileEnds ?_)
  rintro r t ⟨aside,done⟩
  have sincere := sincereSame sincere aside.reports
  cases r with
  | error e => exact ⟨sincere,fun never => by cases never⟩
  | ok adopted =>
      obtain ⟨secret,rfl,has⟩ := done adopted rfl
      refine settleEnds sincere fun enabled none => ?_
      have none : secret.any isTruthy = false := none
      rw [none] at has
      rw [aside.record]
      exact known enabled (has.resolve_left Bool.false_ne_true)

theorem modifiedEnds (sincere : Sincere settings s) :
    Ends settings (reconcileModified settings client) (Told settings) s := by
  refine endsAsk fun w => aloneBind (soundMono reconcileEnds ?_)
  rintro r t ⟨aside,done⟩
  have sincere : Sincere settings t := sincereSame sincere aside.reports
  cases r with
  | error e => exact ⟨sincere,fun never => by cases never⟩
  | ok adopted =>
      obtain ⟨secret,rfl,_⟩ := done adopted rfl
      exact storeEnds sincere

theorem resolvedSame {ingress : Option Ingress} {resolved : Client} (found : resolved? settings ingress client = some resolved) :
    resolved.isDisabled = client.isDisabled ∧ resolved.usesClientSecret = client.usesClientSecret ∧
      resolved.reference = client.reference := by
  unfold resolved? at found
  split at found
  · cases found
    exact ⟨rfl,rfl,rfl⟩
  · split at found
    · cases found
    · split at found
      · cases found
        exact ⟨rfl,rfl,rfl⟩
      · cases found

theorem resolvedClaimed {ingress : Option Ingress} : resolved? settings ingress (client.claimed settings.own) =
    (resolved? settings ingress client).map (Client.claimed settings.own) := by
  have spec : (client.claimed settings.own).spec = client.spec := rfl
  cases named : client.spec.ingressRef.filter (· ≠ "") with
  | none => simp only [resolved?,spec,named,Option.map_some]
  | some name =>
      simp only [resolved?,spec,named]
      split
      · rfl
      · split
        · rfl
        · rfl

theorem settledRecorded (borne : Borne settings s) (settled : s.Settled settings client) {resolved : Client}
    (found : resolved? settings s.ingress client = some resolved) : Recorded? settings resolved s.record := by
  obtain ⟨earlier,last,enabled,alike⟩ := settled
  obtain ⟨secret,record⟩ := borne earlier last enabled
  exact ⟨secret,by rw [alike resolved found secret]; exact record⟩

theorem secretlessResolved {ingress : Option Ingress} {resolved : Client} {secret : Option SecretBytes}
    (found : resolved? settings ingress client = some resolved) (secretless : Secretless secret resolved) :
    Secretless secret client := ⟨(resolvedSame found).2.1 ▸ secretless.1,secretless.2⟩

theorem headAnswered {fates : List Fate} (applied : (fates.headD default).outcome = .applied) :
    ∀ fate ∈ fates.take 1, fate.outcome = .applied := by
  cases fates with
  | nil => exact fun _ inside => by cases inside
  | cons first rest =>
      intro fate inside
      cases List.mem_singleton.mp inside
      exact applied

theorem takenAnswered {fates : List Fate} {m n : Nat} (first : ∀ fate ∈ fates.take m, fate.outcome = .applied)
    (later : ∀ fate ∈ (fates.drop m).take n, fate.outcome = .applied) :
    ∀ fate ∈ fates.take (m + n), fate.outcome = .applied := by
  intro fate inside
  rw [List.take_add] at inside
  exact (List.mem_append.mp inside).elim (first fate) (later fate)

theorem ingressRun (fates : List Fate) : ∃ r rest, run (answerReady settings.own) (resolveIngress settings client) fates s = (r,rest,s) ∧
    ∀ resolved, r = .ok resolved → resolved? settings s.ingress client = some resolved ∧
      rest = fates.drop client.ingressReads ∧ ∀ fate ∈ fates.take client.ingressReads, fate.outcome = .applied := by
  unfold resolveIngress Client.ingressReads
  cases named : client.spec.ingressRef.filter (· ≠ "") with
  | none =>
      refine ⟨_,_,rfl,fun resolved same => ?_⟩
      cases same
      refine ⟨by simp only [resolved?,named],rfl,fun _ inside => by cases inside⟩
  | some name =>
      dsimp only
      split
      · exact ⟨_,_,rfl,fun resolved never => by cases never⟩
      · rename_i discovery
        have answered (clientNamespace name : String) :
            answerReady settings.own (fates.headD default) (.getIngress clientNamespace name) s =
              (if (fates.headD default).outcome = .applied then s.ingress else none,s) := rfl
        rw [runAsk,answered]
        by_cases applied : (fates.headD default).outcome = .applied
        · rw [if_pos applied]
          cases found : resolveIngressRef settings.resolve s.ingress client.spec.redirectPaths with
          | none => exact ⟨_,_,rfl,fun resolved never => by cases never⟩
          | some result => cases result with
              | error problems => exact ⟨_,_,rfl,fun resolved never => by cases never⟩
              | ok resolved =>
                  refine ⟨_,_,rfl,fun other same => ?_⟩
                  cases same
                  refine ⟨by simp only [resolved?,named,if_neg discovery,found],?_,headAnswered applied⟩
                  exact (List.drop_one (l := fates)).symm
        · rw [if_neg applied]
          exact ⟨_,_,rfl,fun resolved never => by cases never⟩

variable (settings) in
abbrev Does {α : Type} (p : Handling α) (fates : List Fate) (Q : Except HandlerError α → ReadyWorld → Prop) (s : ReadyWorld) : Prop :=
  Q (run (answerReady settings.own) p fates s).1 (after (answerReady settings.own) p fates s)

theorem endsDoes {α : Type} {p : Handling α} {Q : Except HandlerError α → ReadyWorld → Prop} (ends : Ends settings p Q s)
    (fates : List Fate) : Does settings p fates Q s := aloneRun ends (disciplinedTrivial p fates s)

theorem askDoes {α : Type} {c : OperatorCall} {f : OperatorAnswer c → Handling α} {Q : Except HandlerError α → ReadyWorld → Prop}
    {fates : List Fate} (rest : Does settings (f (answerReady settings.own (fates.headD default) c s).1) (fates.drop 1) Q
      (answerReady settings.own (fates.headD default) c s).2) : Does settings (ask (I := operatorCalls) c >>= f) fates Q s := by
  rw [List.drop_one] at rest
  exact rest

theorem reportingDoes {body : Handling Unit} {fates : List Fate} (told : Does settings body fates (Told settings) s) :
    Does settings (reporting client body) fates (fun _ t => Faithful settings t) s := by
  unfold Does after at told ⊢
  unfold reporting
  rw [runTryCatch]
  rcases ended : run (answerReady settings.own) body fates s with ⟨r,rest,t⟩
  rw [ended] at told
  cases r with
  | ok _ => exact ⟨told.1,told.2 rfl⟩
  | error e => exact endsDoes (failureEnds told.1) rest

theorem resolvedDoes {body : Client → Handling Unit} {fates : List Fate} (sincere : Sincere settings s)
    (rest : ∀ resolved, resolved? settings s.ingress client = some resolved →
      (∀ fate ∈ fates.take client.ingressReads, fate.outcome = .applied) →
      Does settings (body resolved) (fates.drop client.ingressReads) (Told settings) s) :
    Does settings (resolveIngress settings client >>= body) fates (Told settings) s := by
  obtain ⟨r,later,ran,found⟩ := @ingressRun settings client s fates
  unfold Does after
  rw [runBind,ran]
  cases r with
  | error e => exact ⟨sincere,fun never => by cases never⟩
  | ok resolved =>
      obtain ⟨its,rfl,answered⟩ := found resolved rfl
      exact rest resolved its answered

theorem addingDoes {fates : List Fate} (sincere : Sincere settings s)
    (known : ∀ resolved, resolved? settings s.ingress client = some resolved →
      (∀ fate ∈ fates.take client.ingressReads, fate.outcome = .applied) →
      client.isDisabled = false → Secretless s.secret client → Recorded? settings resolved s.record) :
    Does settings (resolveIngress settings client >>= fun client => reconcileAdded settings client refreshOnlyIfChanged) fates
      (Told settings) s := by
  refine resolvedDoes sincere fun resolved found answered => endsDoes (addedEnds sincere fun enabled secretless => ?_) _
  exact known resolved found answered ((resolvedSame found).1 ▸ enabled) (secretlessResolved found secretless)

theorem replayingDoes {replayed : Bool} {fates : List Fate} (sincere : Sincere settings s)
    (known : ∀ resolved, resolved? settings s.ingress client = some resolved → client.isDisabled = false →
      (∀ fate ∈ fates.take (client.ingressReads + if replayed then 1 else 0), fate.outcome = .applied) →
      (replayed = true ∧ s.record ≠ none ∨ Secretless s.secret client) → Recorded? settings resolved s.record) :
    Does settings (do
        let client ← resolveIngress settings client
        let known ← if replayed then ClientRedis.find client.clientId else .pure none
        if known.isSome then settleCreated settings client else reconcileAdded settings client true)
      fates (Told settings) s := by
  refine resolvedDoes sincere fun resolved found answered => ?_
  have same := (resolvedSame found).1
  cases replayed with
  | false =>
      refine endsDoes (addedEnds sincere fun enabled secretless => ?_) _
      exact known resolved found (same ▸ enabled) answered (.inr (secretlessResolved found secretless))
  | true =>
      let w := (fates.drop client.ingressReads).headD default
      have read : answerReady settings.own w (.find resolved.clientId) s = (if w.outcome = .applied then some s.record else none,s) := rfl
      rw [if_pos rfl]
      unfold ClientRedis.find
      rw [bindAssoc]
      refine askDoes ?_
      rw [read]
      by_cases applied : w.outcome = .applied
      · have answered := takenAnswered answered (headAnswered applied)
        rw [if_pos applied]
        dsimp only
        rw [pureBind]
        split
        · rename_i present
          refine endsDoes (settleEnds sincere fun enabled _ => ?_) _
          exact known resolved found (same ▸ enabled) answered (.inl ⟨rfl,Option.isSome_iff_ne_none.mp present⟩)
        · refine endsDoes (addedEnds sincere fun enabled secretless => ?_) _
          exact known resolved found (same ▸ enabled) answered (.inr (secretlessResolved found secretless))
      · rw [if_neg applied]
        exact ⟨sincere,fun never => by cases never⟩

theorem validEnds : Ends settings (assertValidClaimMappings client) (fun _ t => t = s) s := by
  unfold assertValidClaimMappings
  dsimp only
  split
  · exact (alonePure _ _ _).mpr rfl
  · exact (aloneThrow _ _ _).mpr rfl

/- A client that nobody has bound is claimed first, if this call is answered. -/
theorem oursDoes {next : Client → Handling Unit} {fates : List Fate} (faithful : Faithful settings s)
    (bound : client.boundTo = some settings.own → Does settings (next client) fates (fun _ t => Faithful settings t) s)
    (claimed : client.boundTo = none → (∀ fate ∈ fates.take 1, fate.outcome = .applied) →
      Does settings (next (client.claimed settings.own)) (fates.drop 1) (fun _ t => Faithful settings t) s) :
    Does settings (whenOurs settings client next) fates (fun _ t => Faithful settings t) s := by
  unfold whenOurs
  split
  · rename_i ours
    exact bound ours
  · split
    · exact faithful
    · rename_i unbound
      refine askDoes ?_
      have answered : answerReady settings.own (fates.headD default) (.replaceClientStatus client none) s =
          (if (fates.headD default).outcome = .applied then some (client.claimed settings.own) else none,s) := rfl
      rw [answered]
      by_cases applied : (fates.headD default).outcome = .applied
      · rw [if_pos applied]
        have kept : (some (client.claimed settings.own)).filter (·.boundTo = some settings.own) =
            some (client.claimed settings.own) := by simp [Client.claimed]
        dsimp only
        rw [kept]
        exact claimed unbound (headAnswered applied)
      · rw [if_neg applied]
        exact faithful

theorem createDoes {fates : List Fate} (faithful : Faithful settings s)
    (inOrder : s.Leaves settings client fates → s.Settled settings client) :
    Does settings (createOIDCClient settings client) fates (fun _ t => Faithful settings t) s := by
  have current : Faithful settings {s with fingerprint := some client.getReconcileFingerprint} := faithful
  unfold createOIDCClient
  refine askDoes (askDoes ?_)
  rw [List.drop_drop]
  have registered : (answerReady settings.own ((fates.drop 1).headD default) (.register client)
      (answerReady settings.own (fates.headD default) (.isCurrent client) s).2).2 =
      {s with fingerprint := some client.getReconcileFingerprint} := rfl
  rw [registered]
  split
  · refine reportingDoes (endsDoes (soundMono validEnds ?_) _)
    rintro r t rfl
    exact ⟨current.1,fun _ => current.2⟩
  · rename_i valid
    have recorded (ours : client.boundTo = some settings.own ∨ client.boundTo = none) {resolved : Client}
        (found : resolved? settings s.ingress client = some resolved) (enabled : client.isDisabled = false)
        (answered : ∀ fate ∈ (fates.drop 2).take (s.callsBefore settings client), fate.outcome = .applied)
        (unwritten : s.Unwritten settings client) : Recorded? settings resolved s.record := by
      have leaves : s.Leaves settings client fates := ⟨enabled,valid,ours,by simp [found],answered,unwritten⟩
      exact settledRecorded faithful.2 (inOrder leaves) found
    split
    · rename_i bound
      refine reportingDoes (replayingDoes current.1 fun resolved found enabled answered left => ?_)
      have calls : s.callsBefore settings client = client.ingressReads +
          if decide (s.fingerprint = some client.getReconcileFingerprint) = true then 1 else 0 := by
        simp [ReadyWorld.callsBefore,bound]
      refine recorded (.inl bound) found enabled (calls ▸ answered) ?_
      exact left.imp (fun replay => ⟨bound,of_decide_eq_true replay.1,replay.2⟩) id
    · rename_i other
      refine oursDoes current (fun bound => absurd bound other) fun unbound claiming => ?_
      refine reportingDoes (addingDoes current.1 fun claimed found later enabled secretless => ?_)
      rw [resolvedClaimed] at found
      obtain ⟨resolved,unclaimed,rfl⟩ := Option.map_eq_some_iff.mp found
      have calls : s.callsBefore settings client = 1 + client.ingressReads := by
        simp [ReadyWorld.callsBefore,unbound]
      have unchanged : Recorded? settings resolved s.record :=
        recorded (.inr unbound) unclaimed enabled (calls ▸ takenAnswered claiming later) (.inr secretless)
      exact unchanged

theorem updateDoes {fates : List Fate} (faithful : Faithful settings s) (forced : Bool) :
    Does settings (updateOIDCClient settings forced client) fates (fun _ t => Faithful settings t) s := by
  unfold updateOIDCClient
  refine askDoes ?_
  have remembered : (answerReady settings.own (fates.headD default) (.shouldReconcile client) s).2 =
      {s with fingerprint := some client.getReconcileFingerprint} := rfl
  rw [remembered]
  have current : Faithful settings {s with fingerprint := some client.getReconcileFingerprint} := faithful
  have body (ours : Client) (fates : List Fate) : Does settings (reporting ours (do
        assertValidClaimMappings ours
        let client ← resolveIngress settings ours
        if client.isDisabled then disable client else reconcileModified settings client))
      fates (fun _ t => Faithful settings t) {s with fingerprint := some client.getReconcileFingerprint} := by
    refine reportingDoes ?_
    unfold assertValidClaimMappings
    dsimp only
    split
    · rw [pureBind]
      refine resolvedDoes current.1 fun resolved _ _ => ?_
      split
      · rename_i disabled
        exact endsDoes (disableEnds current.1 disabled) (fates.drop ours.ingressReads)
      · exact endsDoes (modifiedEnds current.1) (fates.drop ours.ingressReads)
    · exact ⟨current.1,fun never => by cases never⟩
  split
  · exact current
  · exact oursDoes current (fun _ => body client (fates.drop 1)) fun _ _ => body (client.claimed settings.own) _

theorem deleteEnds (faithful : Faithful settings s) :
    Ends settings (deleteOIDCClient settings client) (fun _ t => Faithful settings t) s := by
  unfold deleteOIDCClient
  refine endsAsk fun w => ?_
  have forgotten : (answerReady settings.own w (.unregister client) s).2 = {s with fingerprint := none, settled := none} := rfl
  rw [forgotten]
  have current (t : ReadyWorld) (reports : t.reports = s.reports) (settled : t.settled = none) : Faithful settings t := by
    refine ⟨sincereSame faithful.1 reports,fun earlier last => ?_⟩
    rw [settled] at last
    cases last
  split
  · exact (alonePure _ _ _).mpr (current _ rfl rfl)
  · refine aloneTryCatch (soundMono destroyEnds ?_)
    rintro r t ⟨reports,settled,_⟩
    cases r with
    | ok _ => exact current t reports settled
    | error e => exact (alonePure _ _ _).mpr (current t reports settled)

end Handlers

namespace ReadyWorld
variable {settings : OperatorSettings} {reference : Reference} {s : ReadyWorld}

theorem stepFaithful (faithful : Faithful settings s) {move : ReadyMove reference} (inOrder : s.InOrder settings move) :
    Faithful settings (s.step settings move) := by
  cases move with
  | change ingress => exact faithful
  | handle type version fates =>
      cases type with
      | added => exact createDoes faithful inOrder
      | modified => exact updateDoes faithful false
      | deleted => exact endsDoes (deleteEnds faithful) fates

theorem runFaithful (faithful : Faithful settings s) {moves : List (ReadyMove reference)}
    (inOrder : EachStep (step settings) (InOrder settings) moves s) : Faithful settings (s.run settings moves) :=
  eachStepKeeps (Faithful settings) (fun _ _ faithful => stepFaithful faithful) faithful inOrder

end ReadyWorld

/- From any Secret and any record: in every run where an ADDED that leaves the record of an enabled client comes after a report
that all is well with such a client, every report is true. -/
theorem reportsHonest (settings : OperatorSettings) {reference : Reference} (start : ReadyWorld) (untold : start.reports = [])
    (unsettled : start.settled = none) (moves : List (ReadyMove reference))
    (inOrder : EachStep (ReadyWorld.step settings) (ReadyWorld.InOrder settings) moves start) :
    ∀ report ∈ (ReadyWorld.run settings moves start).reports, report.Honest settings := by
  have sincere : Sincere settings start := by
    intro report inside
    rw [untold] at inside
    cases inside
  have borne : Borne settings start := by
    intro settled last
    rw [unsettled] at last
    cases last
  exact (ReadyWorld.runFaithful ⟨sincere,borne⟩ inOrder).1

namespace Grafana

def version (generation : Nat) (displayName : String) : Version reference where
  client := {client "client_secret_basic" with
    generation := generation, spec := {(client "client_secret_basic").spec with displayName := some displayName}}
  named := rfl
  kind := rfl

def renamed : List (ReadyMove reference) := [
  .handle .added (version 1 "Graphs") [],
  .handle .modified (version 2 "Grafana") (List.replicate 4 default ++ [{outcome := .refused}]),
  .handle .added (version 2 "Grafana") []]

end Grafana

/- The replayed ADDED finds the record of the old version, leaves it, and reports that all is well. -/
theorem replayReported : ¬ ∀ (settings : OperatorSettings) (reference : Reference) (start : ReadyWorld)
    (moves : List (ReadyMove reference)), start.reports = [] → start.settled = none →
    ∀ report ∈ (ReadyWorld.run settings moves start).reports, report.Honest settings := by
  intro always
  have honest := always Grafana.settings Grafana.reference {} Grafana.renamed rfl rfl
  have last : (ReadyWorld.run Grafana.settings Grafana.renamed {}).reports.getLast?.map (fun report =>
      (report.condition.status,report.condition.reason,report.client.spec.displayName,report.record.map (·.displayName))) =
      some (true,"Reconciled",some "Grafana",some (some "Graphs")) := by
    decide +kernel
  obtain ⟨report,found,same⟩ := Option.map_eq_some_iff.mp last
  obtain ⟨status,reason,client,record⟩ : report.condition.status = true ∧ report.condition.reason = "Reconciled" ∧
      report.client.spec.displayName = some "Grafana" ∧ report.record.map (·.displayName) = some (some "Graphs") := by
    simpa using same
  obtain ⟨secret,its⟩ := (honest report (List.mem_of_getLast? found) status).1 reason
  rw [its] at record
  have name : ((report.client.setSecret secret).toRedis Grafana.settings none).displayName = report.client.spec.displayName := by
    unfold Client.toRedis
    split
    · rfl
    · rfl
  rw [Option.map_some,name,client] at record
  exact absurd record (by decide)

def rewritten : List (ReadyMove Grafana.reference) := [
  .handle .added (Grafana.version 1 "Graphs") [],
  .handle .modified (Grafana.version 2 "Grafana") [],
  .handle .added (Grafana.version 2 "Grafana") []]

theorem replayTrue : (ReadyWorld.run Grafana.settings rewritten {}).reports.Forall (·.Honest Grafana.settings) := by
  refine List.forall_iff_forall_mem.mpr (reportsHonest Grafana.settings {} rfl rfl rewritten ⟨?_,trivial,?_,trivial⟩)
  · intro leaves
    rcases leaves.unwritten with ⟨_,never,_⟩ | ⟨never,_⟩
    · cases never
    · cases never
  · intro _
    refine ⟨_,rfl,rfl,?_⟩
    intro resolved found secret
    cases found
    rfl

end Passmower.ClientHandlers
