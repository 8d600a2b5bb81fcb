import Passmower.ClientHandlers
import Passmower.Resumption.Stepping

/-! Reconciles of a confidential client, by any number of replicas at once: which `client_secret` its Secret and its Redis
record end up with. -/
namespace Passmower.ClientHandlers
open Resumption Program Encoding SecretData

/- The Secret and the Redis record of the client, and the UUIDs that are still to be drawn. -/
structure SecretWorld where
  secret : Option SecretBytes
  record : Option ClientRecord
  uuids : Nat → Uuid
  issued : Nat := 0

def SecretWorld.held (s : SecretWorld) : Bytes := bytesAt (s.secret.getD []) clientSecretKey

/- The data of a Secret that has any; `getSecret` fails on one without. -/
def readable? (stored : SecretBytes) : Option Parsed := if stored = [] then none else some (readBack stored)

def answerSecrets : Handler operatorCalls Unit SecretWorld := fun _ c s => match c with
  | .getSecret _ => (s.secret.bind readable?,s)
  | .createSecret _ data => match s.secret with
      | some _ => (.alreadyExists,s)
      | none => (.created,{s with secret := some (kept data)})
  | .attempt (.patchSecret _ existing data) => match s.secret with
      | some current => (true,{s with secret := some (patched existing data current)})
      | none => (false,s)
  | .attempt (.set _ record) => (true,{s with record := some record})
  | .attempt (.del _) => (true,{s with record := none})
  | .attempt _ => (true,s)
  | .randomUUID => (s.uuids s.issued,{s with issued := s.issued + 1})
  | .replaceClientStatus client _ => (some client,s)
  | .find _ => (some s.record,s)
  | .getIngress _ _ => (none,s)
  | .getMiddleware _ | .isCurrent _ | .shouldReconcile _ => (true,s)
  | .createEvent _ _ _ | .delay | .register _ | .unregister _ => ((),s)

structure ConfidentialClient (reference : Reference) where
  client : Client
  named : client.reference = reference
  kind : client.reference.clientKind = .oidcClient
  confidential : client.usesClientSecret = true
  enabled : client.isDisabled = false

inductive Reconcile (reference : Reference) where
  | added (settings : OperatorSettings) (version : ConfidentialClient reference) (refreshOnlyIfChanged : Bool)
  | modified (settings : OperatorSettings) (version : ConfidentialClient reference)

def Reconcile.program {reference : Reference} : Reconcile reference → Handling Unit
  | .added settings version refreshOnlyIfChanged =>
      reporting version.client (reconcileAdded settings version.client refreshOnlyIfChanged)
  | .modified settings version => reporting version.client (reconcileModified settings version.client)

inductive SecretMove (reference : Reference) where
  | begin (reconcile : Reconcile reference)
  | proceed (n : Nat)

abbrev SecretPool := Pool operatorCalls HandlerError SecretWorld

namespace SecretPool
variable {reference : Reference}

def step (pool : SecretPool) : SecretMove reference → SecretPool
  | .begin reconcile => pool.spawn (fun _ => answerSecrets) OperatorCall.awaits reconcile.program
  | .proceed n => pool.proceed (fun _ => answerSecrets) OperatorCall.awaits n ()

def run (moves : List (SecretMove reference)) (start : SecretWorld) : SecretPool := moves.foldl step ⟨[],start⟩

end SecretPool

def SecretWorld.Agrees (s : SecretWorld) : Prop := ∃ record text, s.record = some record ∧
  record.clientSecret = some (.string text) ∧ s.held = utf8 text ∧ s.held ≠ []

structure Converges {reference : Reference} (moves : List (SecretMove reference)) (start : SecretWorld) : Prop where
  kept : ∀ before after, moves = before ++ after → (SecretPool.run before start).state.held ≠ [] →
    (SecretPool.run moves start).state.held = (SecretPool.run before start).state.held
  agreed : (SecretPool.run moves start).threads ≠ [] →
    (∀ p ∈ (SecretPool.run moves start).threads, ∀ c next, p ≠ .call c next) → (SecretPool.run moves start).state.Agrees

def Plain (bytes : Bytes) : Prop := parse (utf8Text bytes) = none ∧ utf8 (utf8Text bytes) = bytes

def SecretWorld.Valid (s : SecretWorld) : Prop := ∀ stored, s.secret = some stored →
  stored ≠ [] ∧ (s.held = [] ∨ Plain s.held)

/- A Secret that was read without a `client_secret` is patched while it has none. -/
def Unissued (s : SecretWorld) : OperatorCall → Prop
  | .attempt (.patchSecret _ existing _) => (existing.lookup clientSecretKey).any isTruthy = true ∨ s.held = []
  | _ => True

def SecretPool.InTime {reference : Reference} (pool : SecretPool) : SecretMove reference → Prop
  | .proceed n => pool.Ready (fun _ => Unissued) n
  | .begin _ => True

section Data
variable {existing : Parsed} {front : Sent} {current stored : SecretBytes} {text : Utf16} {bytes : Bytes}

theorem lookupWhere {β : Type} (keeps : Utf16 → Bool) (fields : List (Utf16 × β)) (key : Utf16) :
    (fields.filter fun field => keeps field.1).lookup key = if keeps key then fields.lookup key else none := by
  induction fields with
  | nil => simp
  | cons field rest ih =>
      rw [List.filter_cons,List.lookup_cons]
      by_cases here : key = field.1
      · rw [here]
        cases kept : keeps field.1 with
        | true => rw [if_pos rfl,if_pos rfl,List.lookup_cons,beq_self_eq_true]
        | false => rw [if_neg Bool.false_ne_true,← here,ih,here,kept,if_neg Bool.false_ne_true,if_neg Bool.false_ne_true]
      · rw [beq_false_of_ne here]
        split
        · rw [List.lookup_cons,beq_false_of_ne here,ih]
        · exact ih

theorem keptApart (key : Utf16) (apart : ∀ field ∈ front, field.1 ≠ key) : (kept front).lookup key = none := by
  refine List.lookup_eq_none_iff.mpr fun field inside => ?_
  obtain ⟨sent,listed,same⟩ := List.mem_filterMap.mp inside
  obtain ⟨value,_,rfl⟩ := Option.map_eq_some_iff.mp same
  simpa using (apart sent listed).symm

theorem keptLast (key text : Utf16) (apart : ∀ field ∈ front, field.1 ≠ key) :
    (kept (front ++ [(key,some text)])).lookup key = some (fromBase64 text) := by
  have split : kept (front ++ [(key,some text)]) = kept front ++ kept [(key,some text)] := List.filterMap_append
  rw [split,List.lookup_append,keptApart key apart,Option.none_or,kept]
  simp

theorem patchedAt (existing : Parsed) (front : Sent) (current : SecretBytes) (key text : Utf16)
    (apart : ∀ field ∈ front, field.1 ≠ key) :
    bytesAt (patched existing (front ++ [(key,some text)]) current) key =
      if changesKey existing (front ++ [(key,some text)]) key then fromBase64 text else bytesAt current key := by
  have old := lookupWhere (fun other => !changesKey existing (front ++ [(key,some text)]) other) current key
  rw [bytesAt,patched,List.lookup_append,old,List.filter_append]
  cases changed : changesKey existing (front ++ [(key,some text)]) key with
  | true =>
      rw [List.filter_cons_of_pos (by simpa using changed),List.filter_nil,
        keptLast key text fun field inside => apart field (List.mem_of_mem_filter inside)]
      rfl
  | false =>
      rw [List.filter_cons_of_neg (by simpa using changed),List.filter_nil,List.append_nil,
        keptApart key fun field inside => apart field (List.mem_of_mem_filter inside)]
      rfl

end Data

section Sending
variable (settings : OperatorSettings) (client : Client) {text : Utf16}

theorem describedApart : ∀ field ∈ client.describedInSecret settings, units field.1 ≠ clientSecretKey := by
  have keys : ((client.describedInSecret settings).map Prod.fst).all (fun key => units key ≠ clientSecretKey) = true := by
    unfold Client.describedInSecret
    simp only [List.map_cons,List.map_nil]
    decide
  intro field inside
  exact of_decide_eq_true (List.all_eq_true.mp keys field.1 (List.mem_map_of_mem inside))

theorem textsSent (buffered : JsonValue → Option Bytes) (fields : List (String × String))
    (last : List (Utf16 × Option JsonValue)) :
    generateSecretData buffered (fields.map (fun field => (units field.1,some (.string (units field.2)))) ++ last) =
      (generateSecretData buffered last).map fun sent =>
        fields.map (fun field => (units field.1,(SecretValue.text (units field.2)).field?)) ++ sent := by
  induction fields with
  | nil => simp
  | cons field rest ih =>
      unfold generateSecretData at ih ⊢
      rw [List.map_cons,List.cons_append,List.mapM_cons,ih]
      cases generated : last.mapM fun field => (field? buffered field.2).map fun sent => (field.1,sent) with
      | none => rfl
      | some sent => rfl

theorem secretSent (confidential : client.usesClientSecret = true) (present : text ≠ []) : ∃ front : Sent,
    secretData settings (client.setSecret (some (.string text))) =
      .pure (front ++ [(clientSecretKey,some (base64 (utf8 text)))]) ∧ ∀ field ∈ front, field.1 ≠ clientSecretKey := by
  have same : (client.setSecret (some (.string text))).usesClientSecret = true := confidential
  refine ⟨(client.describedInSecret settings).map fun field =>
    (units field.1,(SecretValue.text (units field.2)).field?),?_,?_⟩
  · unfold secretData Client.toClientSecret
    rw [if_pos same,textsSent]
    have last : generateSecretData settings.buffered [(clientSecretKey,some (.string text))] =
        some [(clientSecretKey,some (base64 (utf8 text)))] := by
      simp [generateSecretData,field?,SecretValue.field?,present]
    have last : generateSecretData settings.buffered
        [(clientSecretKey,(client.setSecret (some (.string text))).clientSecret)] =
        some [(clientSecretKey,some (base64 (utf8 text)))] := last
    rw [last]
    rfl
  · intro field inside
    obtain ⟨described,listed,rfl⟩ := List.mem_map.mp inside
    exact describedApart settings client described listed

end Sending

structure SecretWorld.Holds (s : SecretWorld) (text : Utf16) : Prop where
  held : s.held = utf8 text
  present : s.held ≠ []

structure Onward (a b : SecretWorld) : Prop where
  valid : a.Valid → b.Valid
  there : a.secret ≠ none → b.secret ≠ none
  held : a.held ≠ [] → b.held = a.held
  agrees : a.Agrees → b.Agrees

def converging : Contract operatorCalls SecretWorld := ⟨Unissued,Onward,Onward⟩

section Steps
variable {a b c s : SecretWorld} {text : Utf16} {stored : SecretBytes}

theorem onwardRefl (s : SecretWorld) : Onward s s := ⟨id,id,fun _ => rfl,id⟩

theorem onwardTrans (first : Onward a b) (second : Onward b c) : Onward a c where
  valid := second.valid ∘ first.valid
  there := second.there ∘ first.there
  held present := by
    have same := first.held present
    rw [← same] at present ⊢
    exact second.held present
  agrees := second.agrees ∘ first.agrees

theorem holdsOnward (holds : a.Holds text) (onward : Onward a b) : b.Holds text := by
  have same := onward.held holds.present
  exact ⟨same.trans holds.held,same ▸ holds.present⟩

theorem sameOnward (secret : b.secret = a.secret) (record : b.record = a.record) : Onward a b := by
  have held : b.held = a.held := by
    unfold SecretWorld.held
    rw [secret]
  refine ⟨?_,by rw [secret]; exact id,fun _ => held,?_⟩
  · intro valid stored found
    rw [held]
    exact valid stored (secret ▸ found)
  · rintro ⟨its,text,found,rest⟩
    exact ⟨its,text,record.trans found,by rw [held]; exact rest⟩

theorem recordOnward {record : ClientRecord} (holds : s.Holds text) (its : record.clientSecret = some (.string text)) :
    Onward s {s with record := some record} ∧ SecretWorld.Agrees {s with record := some record} := by
  have agrees : SecretWorld.Agrees {s with record := some record} := ⟨record,text,rfl,its,holds.held,holds.present⟩
  exact ⟨⟨id,id,fun _ => rfl,fun _ => agrees⟩,agrees⟩

theorem secretOnward {stored : SecretBytes} (plain : Plain (utf8 text)) (present : utf8 text ≠ [])
    (its : bytesAt stored clientSecretKey = utf8 text) (old : s.held = [] ∨ s.held = utf8 text) :
    Onward s {s with secret := some stored} ∧ SecretWorld.Holds {s with secret := some stored} text := by
  have held : SecretWorld.held {s with secret := some stored} = utf8 text := its
  have kept : s.held ≠ [] → SecretWorld.held {s with secret := some stored} = s.held := by
    intro has
    rcases old with none | same
    · exact absurd none has
    · exact held.trans same.symm
  have holds : SecretWorld.Holds {s with secret := some stored} text := ⟨held,held ▸ present⟩
  refine ⟨⟨?_,fun _ => Option.some_ne_none stored,kept,?_⟩,holds⟩
  · intro _ other found
    cases Option.some.inj found
    refine ⟨?_,.inr (by rw [held]; exact plain)⟩
    rintro rfl
    exact present (its.symm.trans rfl)
  · rintro ⟨record,other,found,same,text,has⟩
    exact ⟨record,other,found,same,(kept has).trans text,by rw [kept has]; exact has⟩

theorem readHeld (valid : s.Valid) (found : s.secret = some stored) : readable? stored = some (readBack stored) ∧
    (((readBack stored).lookup clientSecretKey).any isTruthy = true →
      ∃ text, (readBack stored).lookup clientSecretKey = some (.string text) ∧ text ≠ [] ∧ Plain (utf8 text) ∧
        s.Holds text) := by
  obtain ⟨data,secret⟩ := valid stored found
  have held : s.held = bytesAt stored clientSecretKey := by
    unfold SecretWorld.held
    rw [found]
    rfl
  refine ⟨if_neg data,fun truthy => ?_⟩
  rw [readBackFields,lookupMap] at truthy ⊢
  rw [held] at secret
  unfold bytesAt at secret held
  cases under : stored.lookup clientSecretKey with
  | none =>
      rw [under] at truthy
      cases truthy
  | some bytes =>
      rw [under] at truthy secret held
      rcases secret with empty | plain
      · have empty : bytes = [] := empty
        rw [empty] at truthy
        cases truthy
      · have plain : Plain bytes := plain
        have text : readValue? bytes = .string (utf8Text bytes) := by
          unfold readValue?
          rw [plain.1]
          rfl
        rw [Option.map_some,text] at truthy
        have nonempty : utf8Text bytes ≠ [] := of_decide_eq_true truthy
        refine ⟨utf8Text bytes,congrArg some text,nonempty,by rw [plain.2]; exact plain,held.trans plain.2.symm,?_⟩
        rw [held]
        rintro none
        have none : bytes = [] := none
        rw [none] at nonempty
        exact nonempty rfl

theorem utf8Empty (empty : utf8 text = []) : text = [] := by
  have read := wellFormedLength text
  rw [← utf8Read,empty] at read
  exact List.eq_nil_of_length_eq_zero read.symm

theorem uuidPlain (uuid : Uuid) : Plain (utf8 uuid.text) ∧ uuid.text ≠ [] := by
  have read : utf8Text (utf8 uuid.text) = uuid.text := by
    rw [utf8Read]
    exact asciiWellFormed (uuidAscii uuid)
  refine ⟨⟨by rw [read]; exact uuidNoJson uuid,by rw [read]⟩,?_⟩
  obtain ⟨digit,rest,starts⟩ := uuidStarts uuid
  rw [starts]
  exact List.cons_ne_nil _ _

end Steps

section Threads
variable {settings : OperatorSettings} {client : Client} {existing : Parsed} {refreshOnlyIfChanged : Bool} {text : Utf16}
  {t u v : SecretWorld}

abbrev Converging {α : Type} (p : Handling α) (Q : Except HandlerError α → SecretWorld → SecretWorld → Prop)
    (t u : SecretWorld) : Prop := Keeps answerSecrets OperatorCall.awaits converging p Q t u

theorem jobKeeps (onward : Onward t u) (holds : u.Holds text) :
    Converging (reconcileRefreshJob client) (fun r t u => Onward t u ∧ r = .ok () ∧ u.Holds text) t u := by
  unfold reconcileRefreshJob
  refine keepsIf (fun _ => ⟨onward,rfl,holds⟩) fun _ => ?_
  refine keepsAskAwait rfl onward fun v moved _ _ => ?_
  exact ⟨onwardRefl v,rfl,holdsOnward holds moved⟩

def Adopted (client : Client) (r : Except HandlerError Client) (t u : SecretWorld) : Prop :=
  Onward t u ∧ ∃ text, text ≠ [] ∧ r = .ok (client.setSecret (some (.string text))) ∧ u.Holds text

theorem changesFalsy {front : Sent} (falsy : (existing.lookup clientSecretKey).any isTruthy ≠ true) (present : text ≠ [])
    (apart : ∀ field ∈ front, field.1 ≠ clientSecretKey) :
    changesKey existing (front ++ [(clientSecretKey,some (base64 (utf8 text)))]) clientSecretKey = true := by
  have sent : (front ++ [(clientSecretKey,some (base64 (utf8 text)))]).lookup clientSecretKey =
      some (some (base64 (utf8 text))) := by
    rw [List.lookup_append,List.lookup_eq_none_iff.mpr fun field inside => by simpa using (apart field inside).symm]
    simp
  have encoded : base64 (utf8 text) ≠ [] := by
    intro empty
    have read := base64Read (utf8 text)
    rw [empty] at read
    exact present (utf8Empty read.symm)
  unfold changesKey
  rw [sent]
  cases read : existing.lookup clientSecretKey with
  | none => rfl
  | some value =>
      rw [read] at falsy
      cases value with
      | string inner =>
          have empty : inner = [] := by simpa [isTruthy] using falsy
          rw [empty]
          exact decide_eq_true encoded.symm
      | _ => rfl

theorem patchKeeps (confidential : client.usesClientSecret = true) (present : text ≠ []) (plain : Plain (utf8 text))
    (onward : Onward t u) (there : u.secret ≠ none)
    (old : (existing.lookup clientSecretKey).any isTruthy = true → u.Holds text) :
    Converging (patchKubeSecret settings (client.setSecret (some (.string text))) existing refreshOnlyIfChanged)
      (Adopted client) t u := by
  obtain ⟨front,sent,apart⟩ := secretSent settings client confidential present
  unfold patchKubeSecret
  rw [sent,pureBind]
  unfold must
  rw [bindAssoc]
  refine keepsAskAwait rfl onward fun v moved ok _ => ?_
  obtain ⟨current,found⟩ := Option.ne_none_iff_exists'.mp (moved.there there)
  have answered (reference : Reference) (data : Sent) : answerSecrets () (.attempt (.patchSecret reference existing data)) v =
      (true,{v with secret := some (patched existing data current)}) := by
    simp only [answerSecrets,found]
  have held : v.held = bytesAt current clientSecretKey := by
    unfold SecretWorld.held
    rw [found]
    rfl
  have bytes := patchedAt existing front current clientSecretKey (base64 (utf8 text)) apart
  rw [base64Read,← held] at bytes
  have nonempty : utf8 text ≠ [] := fun empty => present (utf8Empty empty)
  have kept : bytesAt (patched existing (front ++ [(clientSecretKey,some (base64 (utf8 text)))]) current) clientSecretKey =
      utf8 text ∧ (v.held = [] ∨ v.held = utf8 text) := by
    by_cases truthy : (existing.lookup clientSecretKey).any isTruthy = true
    · have same := (holdsOnward (old truthy) moved).held
      refine ⟨bytes.trans ?_,.inr same⟩
      rw [same,ite_self]
    · rw [if_pos (changesFalsy truthy present apart)] at bytes
      exact ⟨bytes,.inl (ok.resolve_left truthy)⟩
  obtain ⟨step,holds⟩ := secretOnward plain nonempty kept.1 kept.2
  rw [answered]
  refine keepsIf (fun _ => ?_) fun _ => ?_
  · refine keepsBind (keepsMono (jobKeeps step holds) ?_)
    rintro r t u ⟨onward,rfl,holds⟩
    exact ⟨onward,text,present,rfl,holds⟩
  · exact ⟨step,text,present,rfl,holds⟩

theorem generateKeeps {Q : Except HandlerError Client → SecretWorld → SecretWorld → Prop} (onward : Onward t u)
    (ends : ∀ text v, Onward t v → Onward u v → text ≠ [] → Plain (utf8 text) →
      Q (.ok (client.setSecret (some (.string text)))) t v) : Converging (generateSecret client) Q t u := by
  obtain ⟨plain,present⟩ := uuidPlain (u.uuids u.issued)
  have drawn : Onward u {u with issued := u.issued + 1} := sameOnward rfl rfl
  exact keepsAskNow rfl (ends _ _ (onwardTrans onward drawn) drawn present plain)

theorem adoptKeeps (confidential : client.usesClientSecret = true) (onward : Onward t u) (there : u.secret ≠ none)
    (known : (existing.lookup clientSecretKey).any isTruthy = true → ∃ text,
      existing.lookup clientSecretKey = some (.string text) ∧ text ≠ [] ∧ Plain (utf8 text) ∧ u.Holds text) :
    Converging (adoptKubeSecret settings client existing refreshOnlyIfChanged) (Adopted client) t u := by
  unfold adoptKubeSecret
  simp only [confidential,Bool.not_true,Bool.or_false]
  by_cases truthy : (existing.lookup clientSecretKey).any isTruthy = true
  · obtain ⟨text,read,present,plain,holds⟩ := known truthy
    rw [if_pos truthy,pureBind,read]
    exact patchKeeps confidential present plain onward there fun _ => holds
  · rw [if_neg truthy]
    refine keepsBind (generateKeeps onward fun text v later drawn present plain => ?_)
    exact patchKeeps confidential present plain later (drawn.there there) fun same => absurd same truthy

theorem createdSecret {front : Sent} (present : text ≠ []) (plain : Plain (utf8 text))
    (apart : ∀ field ∈ front, field.1 ≠ clientSecretKey) (none : v.secret = none) :
    Onward v {v with secret := some (kept (front ++ [(clientSecretKey,some (base64 (utf8 text)))]))} ∧
      SecretWorld.Holds {v with secret := some (kept (front ++ [(clientSecretKey,some (base64 (utf8 text)))]))} text := by
  refine secretOnward plain (fun empty => present (utf8Empty empty)) ?_ (.inl ?_)
  · rw [bytesAt,keptLast clientSecretKey _ apart,base64Read]
    rfl
  · unfold SecretWorld.held
    rw [none]
    rfl

theorem readKeeps (valid : v.Valid) {read : Parsed} (found : v.secret.bind readable? = some read) : v.secret ≠ none ∧
    ((read.lookup clientSecretKey).any isTruthy = true → ∃ text,
      read.lookup clientSecretKey = some (.string text) ∧ text ≠ [] ∧ Plain (utf8 text) ∧ v.Holds text) := by
  obtain ⟨stored,secret,readFound⟩ := Option.bind_eq_some_iff.mp found
  obtain ⟨readable,known⟩ := readHeld valid secret
  cases Option.some.inj (readable.symm.trans readFound)
  exact ⟨by rw [secret]; exact Option.some_ne_none stored,known⟩

theorem reconcileKeeps (confidential : client.usesClientSecret = true) (valid : u.Valid) (onward : Onward t u) :
    Converging (reconcileClientSecret settings client refreshOnlyIfChanged) (Adopted client) t u := by
  unfold reconcileClientSecret
  refine keepsAskAwait rfl onward fun v moved _ _ => ?_
  have answered (w : Unit) (reference : Reference) (s : SecretWorld) :
      answerSecrets w (.getSecret reference) s = (s.secret.bind readable?,s) := rfl
  rw [answered]
  cases read : v.secret.bind readable? with
  | some existing =>
      obtain ⟨there,known⟩ := readKeeps (moved.valid valid) read
      exact adoptKeeps confidential (onwardRefl v) there known
  | none =>
      refine keepsBind (generateKeeps (onwardRefl v) fun text u later drawn present plain => ?_)
      obtain ⟨front,sent,apart⟩ := secretSent settings client confidential present
      simp only [ontoOk]
      rw [sent,pureBind]
      refine keepsAskAwait rfl later fun b further _ _ => ?_
      cases secret : b.secret with
      | none =>
          obtain ⟨step,holds⟩ := createdSecret present plain apart secret
          have created (w : Unit) (reference : Reference) (data : Sent) : answerSecrets w (.createSecret reference data) b =
              (.created,{b with secret := some (kept data)}) := by
            simp only [answerSecrets,secret]
          rw [created]
          refine keepsBind (keepsMono (jobKeeps step holds) ?_)
          rintro r t u ⟨onward,rfl,holds⟩
          exact ⟨onward,text,present,rfl,holds⟩
      | some stored =>
          have refused (w : Unit) (reference : Reference) (data : Sent) : answerSecrets w (.createSecret reference data) b =
              (.alreadyExists,b) := by
            simp only [answerSecrets,secret]
          rw [refused]
          refine keepsAskAwait rfl (onwardRefl b) fun c since _ _ => ?_
          rw [answered]
          have there : c.secret ≠ none := since.there (by rw [secret]; exact Option.some_ne_none stored)
          obtain ⟨stored,found⟩ := Option.ne_none_iff_exists'.mp there
          have valid : c.Valid := since.valid (further.valid (later.valid (moved.valid valid)))
          obtain ⟨readable,_⟩ := readHeld valid found
          have read : c.secret.bind readable? = some (readBack stored) := by
            rw [found]
            exact readable
          rw [read]
          obtain ⟨there,known⟩ := readKeeps valid read
          have same : (client.setSecret (some (.string text))).usesClientSecret = true := confidential
          exact adoptKeeps same (onwardRefl c) there known

def Recorded (r : Except HandlerError Unit) (t u : SecretWorld) : Prop := Onward t u ∧ r = .ok () ∧ u.Agrees

theorem readyKeeps {reason message : String} (onward : Onward t u) (agrees : u.Agrees) :
    Converging (reportReady client reason message) Recorded t u := by
  unfold reportReady replaceClientStatus
  refine keepsAskAwait rfl onward fun v moved _ _ => ?_
  refine keepsIf (fun _ => ?_) fun _ => ⟨onwardRefl v,rfl,moved.agrees agrees⟩
  refine keepsAwait rfl (onwardRefl v) fun c further _ _ => ?_
  exact ⟨onwardRefl c,rfl,further.agrees (moved.agrees agrees)⟩

theorem storeKeeps (kind : client.reference.clientKind = .oidcClient) (onward : Onward t u) (holds : u.Holds text) :
    Converging (store settings (client.setSecret (some (.string text))) none) Recorded t u := by
  have its : ((client.setSecret (some (.string text))).toRedis settings none).clientSecret = some (.string text) := by
    have kind : (client.setSecret (some (.string text))).reference.clientKind = .oidcClient := kind
    unfold Client.toRedis
    rw [kind]
    rfl
  unfold store ClientRedis.upsert must
  rw [bindAssoc,bindAssoc]
  refine keepsAskAwait rfl onward fun v moved _ _ => ?_
  obtain ⟨step,agrees⟩ := recordOnward (holdsOnward holds moved) its
  refine keepsAskAwait rfl step fun b further _ _ => ?_
  exact readyKeeps (onwardRefl b) (further.agrees agrees)

theorem addedKeeps (confidential : client.usesClientSecret = true) (enabled : client.isDisabled = false)
    (kind : client.reference.clientKind = .oidcClient) (valid : u.Valid) (onward : Onward t u) :
    Converging (reconcileAdded settings client refreshOnlyIfChanged) Recorded t u := by
  refine keepsBind (keepsMono (reconcileKeeps confidential valid onward) ?_)
  rintro r t u ⟨onward,text,present,rfl,holds⟩
  have enabled : (client.setSecret (some (.string text))).isDisabled = false := enabled
  have has : (client.setSecret (some (.string text))).hasSecret = true := decide_eq_true present
  rw [ontoOk,settleCreated,enabled,has]
  exact storeKeeps kind onward holds

theorem modifiedKeeps (confidential : client.usesClientSecret = true) (kind : client.reference.clientKind = .oidcClient)
    (valid : u.Valid) (onward : Onward t u) : Converging (reconcileModified settings client) Recorded t u := by
  refine keepsAskAwait rfl onward fun v moved _ _ => ?_
  refine keepsBind (keepsMono (reconcileKeeps confidential (moved.valid valid) (onwardRefl v)) ?_)
  rintro r t u ⟨onward,text,_,rfl,holds⟩
  exact storeKeeps kind onward holds

theorem programKeeps {reference : Reference} (reconcile : Reconcile reference) (valid : u.Valid) :
    Converging reconcile.program (fun _ t u => Onward t u ∧ u.Agrees) u u := by
  cases reconcile with
  | added settings version refreshOnlyIfChanged =>
      refine keepsTryCatch (keepsMono (addedKeeps version.confidential version.enabled version.kind valid (onwardRefl u)) ?_)
      rintro r t u ⟨onward,rfl,agrees⟩
      exact ⟨onward,agrees⟩
  | modified settings version =>
      refine keepsTryCatch (keepsMono (modifiedKeeps version.confidential version.kind valid (onwardRefl u)) ?_)
      rintro r t u ⟨onward,rfl,agrees⟩
      exact ⟨onward,agrees⟩

end Threads

namespace SecretPool
variable {reference : Reference} {pool : SecretPool}

structure Keeping (pool : SecretPool) : Prop where
  valid : pool.state.Valid
  closing : pool.Closing (fun _ => answerSecrets) OperatorCall.awaits (fun _ => converging) fun _ => SecretWorld.Agrees

theorem stepKeeping (keeping : Keeping pool) {move : SecretMove reference} (inTime : InTime pool move) :
    Keeping (step pool move) ∧ Onward pool.state (step pool move).state := by
  have stable {a b : SecretWorld} (onward : Onward a b) : a.Agrees → b.Agrees := onward.agrees
  have moved : (step pool move).Closing (fun _ => answerSecrets) OperatorCall.awaits (fun _ => converging)
      (fun _ => SecretWorld.Agrees) ∧ Onward pool.state (step pool move).state := by
    cases move with
    | begin reconcile =>
        exact Pool.closingSpawn (fun _ => onwardTrans) (fun _ => id) (fun _ => stable) keeping.closing
          (programKeeps reconcile keeping.valid)
    | proceed n =>
        exact Pool.closingProceed (fun _ => onwardTrans) (fun _ => id) (fun _ => stable) (onwardRefl pool.state)
          (onwardRefl pool.state) keeping.closing inTime
  exact ⟨⟨moved.2.valid keeping.valid,moved.1⟩,moved.2⟩

theorem runKeeping {moves : List (SecretMove reference)} (keeping : Keeping pool)
    (inTime : EachStep step InTime moves pool) :
    Keeping (moves.foldl step pool) ∧ Onward pool.state (moves.foldl step pool).state := by
  refine eachStepKeeps (fun later => Keeping later ∧ Onward pool.state later.state) ?_ ⟨keeping,onwardRefl pool.state⟩ inTime
  intro later move ⟨keeping,onward⟩ inTime
  obtain ⟨kept,further⟩ := stepKeeping keeping inTime
  exact ⟨kept,onwardTrans onward further⟩

end SecretPool

/- From every valid state: in every run where each Secret that was read without a `client_secret` is patched while it has
none, a `client_secret` stays, and the record ends up with it. -/
theorem secretsConverge {reference : Reference} (start : SecretWorld) (valid : start.Valid)
    (moves : List (SecretMove reference)) (inTime : EachStep SecretPool.step SecretPool.InTime moves ⟨[],start⟩) :
    Converges moves start where
  kept before after split present := by
    subst split
    obtain ⟨first,second⟩ := eachStepAppend.mp inTime
    have begun : SecretPool.Keeping ⟨[],start⟩ := ⟨valid,Pool.closingEmpty start⟩
    have middle := (SecretPool.runKeeping begun first).1
    unfold SecretPool.run at present ⊢
    rw [List.foldl_append]
    exact (SecretPool.runKeeping middle second).2.held present
  agreed some ended := by
    have begun : SecretPool.Keeping ⟨[],start⟩ := ⟨valid,Pool.closingEmpty start⟩
    have last := (SecretPool.runKeeping begun inTime).1
    exact Pool.closingEnded last.closing ended (List.length_pos_iff.mpr some)

namespace Grafana

def reference : Reference := ⟨"apps","grafana",.oidcClient⟩

def settings : OperatorSettings where
  own := "main"
  issuerUrl := "https://id/"
  wellKnownUri := "https://id/.well-known/openid-configuration"
  idpDisplayName := "Passmower"
  forwardAuthRedirectUri := "https://id/-/oidc-redirect"
  ingressDiscoveryEnabled := false
  urlFor endpoint := "https://id/" ++ endpoint
  resolve _ _ := none
  origin := some
  buffered _ := none

def client (tokenEndpointAuthMethod : String) : Client where
  reference := reference
  boundTo := some "main"
  spec := {
    grantTypes := ["authorization_code"], responseTypes := ["code"], availableScopes := ["openid"]
    redirectUris := ["https://grafana/callback"], uri := some "https://grafana"
    tokenEndpointAuthMethod := tokenEndpointAuthMethod}

def confidential : ConfidentialClient reference := ⟨client "client_secret_basic",rfl,rfl,rfl,rfl⟩

def uuids (n : Nat) : Uuid := ⟨List.replicate 31 0 ++ [Fin.ofNat 16 n],rfl⟩

def publicSecret : Option SecretBytes := (generateSecretData settings.buffered ((client "none").toClientSecret settings)).map kept

def takes (turns : List Nat) : List (SecretMove reference) := turns.map .proceed

def both : List (SecretMove reference) :=
  [.begin (.modified settings confidential),.begin (.modified settings confidential)]

end Grafana

/- Two replicas read the Secret of a client that was public before, and each puts a `client_secret` of its own into it. -/
theorem publicReplaced : ¬ ∀ (reference : Reference) (start : SecretWorld) (moves : List (SecretMove reference)),
    Converges moves start := by
  intro always
  have kept := (always Grafana.reference ⟨Grafana.publicSecret,none,Grafana.uuids,0⟩ _).kept
    (Grafana.both ++ Grafana.takes [0,1,0,1,0]) (Grafana.takes [1]) rfl
  have replaced : (SecretPool.run (Grafana.both ++ Grafana.takes [0,1,0,1,0])
        ⟨Grafana.publicSecret,none,Grafana.uuids,0⟩).state.held ≠ [] ∧
      (SecretPool.run (Grafana.both ++ Grafana.takes [0,1,0,1,0] ++ Grafana.takes [1])
          ⟨Grafana.publicSecret,none,Grafana.uuids,0⟩).state.held ≠
        (SecretPool.run (Grafana.both ++ Grafana.takes [0,1,0,1,0])
          ⟨Grafana.publicSecret,none,Grafana.uuids,0⟩).state.held := by
    decide +kernel
  exact replaced.2 (kept replaced.1)

instance decideUnissued (s : SecretWorld) : (c : OperatorCall) → Decidable (Unissued s c)
  | .attempt (.patchSecret _ existing _) =>
      inferInstanceAs (Decidable ((existing.lookup clientSecretKey).any isTruthy = true ∨ s.held = []))
  | .attempt (.createMiddleware _) | .attempt (.patchMiddleware _) | .attempt (.createJob _ _) | .attempt (.set _ _)
  | .attempt (.sadd _) | .attempt (.del _) | .attempt (.srem _) | .getIngress _ _ | .getMiddleware _ | .getSecret _
  | .createSecret _ _ | .replaceClientStatus _ _ | .createEvent _ _ _ | .delay | .find _ | .randomUUID | .isCurrent _
  | .register _ | .shouldReconcile _ | .unregister _ => .isTrue trivial

instance decideInTime {reference : Reference} (pool : SecretPool) : (move : SecretMove reference) →
    Decidable (pool.InTime move)
  | .proceed n => inferInstanceAs (Decidable (pool.Ready (fun _ => Unissued) n))
  | .begin _ => .isTrue trivial

def createdTwice : List (SecretMove Grafana.reference) :=
  Grafana.both ++ Grafana.takes [0,1,0,1,0,1,0,1,1,1,1,1,1,0,0,0,0]

theorem createdAdopted : (SecretPool.run createdTwice ⟨none,none,Grafana.uuids,0⟩).state.Agrees := by
  have valid : SecretWorld.Valid ⟨none,none,Grafana.uuids,0⟩ := fun stored found => by cases found
  have converges := secretsConverge _ valid createdTwice (by decide +kernel)
  exact converges.agreed (by decide +kernel) (Pool.endedThreads (by decide +kernel))

end Passmower.ClientHandlers
