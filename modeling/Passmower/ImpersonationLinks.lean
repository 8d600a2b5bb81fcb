import Passmower.AccountType
import Passmower.IdentityIntegrity
import Passmower.Resumption.Pool
import Passmower.Resumption.Stepping
import Passmower.Resumption.Triple

/-! One-time impersonation links: activations and endings in any order of their reads and writes, on any number of replicas. -/
namespace Passmower
open JavaScript Resumption Program

inductive ImpersonationCall where
  | find (jti : String)
  /- one transaction, `SET` and `EXPIRE` -/
  | upsert (jti : String) (record : ImpersonationRecord)
  | del (jti : String)
  | findAccount (jti accountId : String)
  | setCookie (jti : String)

abbrev ImpersonationAnswer : ImpersonationCall → Type
  | .find _ => Option ImpersonationRecord
  | .findAccount _ _ => Bool
  | .upsert _ _ | .del _ | .setCookie _ => Unit

abbrev impersonations : Interface := ⟨ImpersonationCall,ImpersonationAnswer⟩

/- Setting the cookie is taken for a call that is awaited like the others, which makes for more interleavings only. -/
def ImpersonationCall.awaits : ImpersonationCall → Bool := fun _ => true

abbrev Impersonating (α : Type) := Program impersonations JsError α

namespace SessionService

def activateImpersonation (notifications : Bool) (jti : String) : Impersonating Bool := do
  match ← ask (I := impersonations) (.find jti) with
  | none => .pure false
  | some impersonation =>
      if impersonation.activated then .pure false
      else do
        ask (I := impersonations) (.upsert jti {impersonation with activated := true})
        let found : Bool ← if notifications then ask (I := impersonations) (.findAccount jti impersonation.accountId) else .pure true
        if found then do
          ask (I := impersonations) (.setCookie jti)
          .pure true
        else .throw (.other "findAccount failed")

def endImpersonation (cookie : Option String) : Impersonating Unit := do
  let jti := cookie.getD "undefined"
  let _ ← ask (I := impersonations) (.find jti)
  ask (I := impersonations) (.del jti)

end SessionService

/- A `GET /impersonate/:jti`, which is refused in a browser that has cookies; and the end of an impersonation. -/
inductive ImpersonationRequest where
  | visit (hasCookies notifications : Bool) (jti : String)
  | finish (cookie : Option String)

def ImpersonationRequest.program : ImpersonationRequest → Impersonating Unit
  | .visit hasCookies notifications jti =>
      if hasCookies then .pure ()
      else do
        let _ ← SessionService.activateImpersonation notifications jti
        .pure ()
  | .finish cookie => SessionService.endImpersonation cookie

inductive ImpersonationEvent where
  | activated (jti : String)
  | ended (jti : String)
  deriving DecidableEq, Repr

/- The records with their deadlines; who has written that a link is activated, and whether it has been ended since; and what has
come about. -/
structure ImpersonationStore where
  clock : Nat := 0
  records : String → Option (ImpersonationRecord × Option Nat)
  accounts : Bool := true
  writers : String → Option Nat := fun _ => none
  endedSince : String → Bool := fun _ => false
  log : List ImpersonationEvent := []

namespace ImpersonationStore
variable (s : ImpersonationStore)

def record (jti : String) : Option ImpersonationRecord :=
  ((s.records jti).filter fun entry => entry.2.all (s.clock < ·)).map Prod.fst

def put (jti : String) (entry : Option (ImpersonationRecord × Option Nat)) : ImpersonationStore :=
  {s with records := fun other => if other = jti then entry else s.records other}

def upserted (ttl n : Nat) (jti : String) (record : ImpersonationRecord) : ImpersonationStore :=
  {s.put jti (some (record,if ttl = 0 then none else some (s.clock + 1000 * ttl))) with
    writers := fun other => if other = jti then some n else s.writers other
    endedSince := fun other => if other = jti then false else s.endedSince other}

def removed (jti : String) : ImpersonationStore :=
  {s.put jti none with
    endedSince := fun other => if other = jti then true else s.endedSince other
    log := .ended jti :: s.log}

def pass (ms : Nat) : ImpersonationStore := {s with clock := s.clock + ms}

end ImpersonationStore

def answerImpersonations (ttl n : Nat) : Handler impersonations Unit ImpersonationStore := fun _ c s => match c with
  | .find jti => (s.record jti,s)
  | .upsert jti record => ((),s.upserted ttl n jti record)
  | .del jti => ((),s.removed jti)
  | .findAccount _ _ => (s.accounts,s)
  | .setCookie jti => ((),{s with log := .activated jti :: s.log})

inductive ImpersonationMove where
  | request (request : ImpersonationRequest)
  | proceed (n : Nat) (accounts : Bool)
  | pass (ms : Nat)

abbrev ImpersonationPool := Pool impersonations JsError ImpersonationStore

namespace ImpersonationPool
variable (ttl : Nat)

def facing (accounts : Bool) (pool : ImpersonationPool) : ImpersonationPool := pool.edit fun s => {s with accounts := accounts}

def step (pool : ImpersonationPool) : ImpersonationMove → ImpersonationPool
  | .request request => pool.spawn (answerImpersonations ttl) ImpersonationCall.awaits request.program
  | .proceed n accounts => (facing accounts pool).proceed (answerImpersonations ttl) ImpersonationCall.awaits n ()
  | .pass ms => pool.edit (·.pass ms)

def run (moves : List ImpersonationMove) (pool : ImpersonationPool) : ImpersonationPool := moves.foldl (step ttl) pool

def begin (records : String → Option (ImpersonationRecord × Option Nat)) : ImpersonationPool := ⟨[],{records := records}⟩

end ImpersonationPool

/- An activation is written over the link that was read: it is there still, and nobody has activated it; and no end falls
between this and the cookie. -/
def Unspent (s : ImpersonationStore) : ImpersonationCall → Prop
  | .upsert jti _ => ∃ record, s.record jti = some record ∧ record.activated = false
  | .setCookie jti => s.endedSince jti = false
  | _ => True

def ImpersonationPool.Undoubled (pool : ImpersonationPool) : ImpersonationMove → Prop
  | .proceed n accounts => (ImpersonationPool.facing accounts pool).Ready (fun _ => Unspent) n
  | _ => True

structure OneTime (s : ImpersonationStore) (jti : String) : Prop where
  once : s.log.count (.activated jti) ≤ 1
  last : ∀ later earlier, s.log = later ++ .ended jti :: earlier → .activated jti ∉ later
  gone : .ended jti ∈ s.log → s.record jti = none

structure LinksOnce (s : ImpersonationStore) : Prop where
  oneTime : ∀ jti, OneTime s jti
  spent : ∀ jti n, s.writers jti = some n → ∀ record, s.record jti = some record → record.activated = true
  written : ∀ jti, .activated jti ∈ s.log → ∃ n, s.writers jti = some n
  since : ∀ jti, .ended jti ∈ s.log → s.endedSince jti = true

structure Minds (n : Nat) (s t : ImpersonationStore) : Prop where
  opened : LinksOnce s → LinksOnce t
  own : ∀ jti, s.writers jti = some n → t.writers jti = some n
  unreported : ∀ jti, s.writers jti = some n → .activated jti ∉ s.log → .activated jti ∉ t.log

def linksContract (n : Nat) : Contract impersonations ImpersonationStore :=
  ⟨Unspent,Minds n,fun s t => (LinksOnce s → LinksOnce t) ∧ ∀ m, m ≠ n → Minds m s t⟩

section Steps
variable {ttl n m : Nat} {s t u : ImpersonationStore} {jti : String} {record : ImpersonationRecord}

theorem mindsSelf (s : ImpersonationStore) : Minds n s s := ⟨id,fun _ => id,fun _ _ => id⟩

theorem mindsTrans (first : Minds n s t) (second : Minds n t u) : Minds n s u :=
  ⟨second.opened ∘ first.opened,fun jti own => second.own jti (first.own jti own),
    fun jti own unreported => second.unreported jti (first.own jti own) (first.unreported jti own unreported)⟩

theorem mindsApart (apart : n ≠ m) (kept : (linksContract n).guarantee s t) : Minds m s t := kept.2 m apart.symm

theorem mindsUnwritten (opened : LinksOnce s → LinksOnce t) (writers : t.writers = s.writers)
    (log : ∀ jti, .activated jti ∈ t.log → .activated jti ∈ s.log) : Minds m s t :=
  ⟨opened,fun jti own => by rw [writers]; exact own,fun jti _ unreported inside => unreported (log jti inside)⟩

theorem recordPut {entry : Option (ImpersonationRecord × Option Nat)} (other : String) : (s.put jti entry).record other =
    if other = jti then (entry.filter fun entry => entry.2.all (s.clock < ·)).map Prod.fst else s.record other := by
  unfold ImpersonationStore.record ImpersonationStore.put
  split <;> simp_all

theorem openedFewer (records : ∀ jti record, t.record jti = some record → s.record jti = some record)
    (writers : t.writers = s.writers) (since : t.endedSince = s.endedSince) (log : t.log = s.log) (opened : LinksOnce s) :
    LinksOnce t := by
  refine ⟨fun jti => ⟨?_,?_,?_⟩,fun jti n writer record found => ?_,fun jti inside => ?_,fun jti ended => ?_⟩
  · rw [log]
    exact (opened.oneTime jti).once
  · rw [log]
    exact (opened.oneTime jti).last
  · intro ended
    rw [log] at ended
    cases found : t.record jti with
    | none => rfl
    | some record =>
        have before := records jti record found
        rw [(opened.oneTime jti).gone ended] at before
        cases before
  · rw [writers] at writer
    exact opened.spent jti n writer record (records jti record found)
  · rw [writers]
    rw [log] at inside
    exact opened.written jti inside
  · rw [since]
    rw [log] at ended
    exact opened.since jti ended

theorem passFewer (ms : Nat) (jti : String) (found : (s.pass ms).record jti = some record) : s.record jti = some record := by
  obtain ⟨entry,live,rfl⟩ := Option.map_eq_some_iff.mp found
  obtain ⟨there,ahead⟩ := Option.filter_eq_some_iff.mp live
  apply Option.map_eq_some_iff.mpr
  refine ⟨entry,Option.filter_eq_some_iff.mpr ⟨there,?_⟩,rfl⟩
  cases ends : entry.2 with
  | none => rfl
  | some deadline =>
      have unexpired : entry.2.all (s.clock + ms < ·) = true := ahead
      have later : s.clock + ms < deadline := of_decide_eq_true (by simpa only [ends,Option.all_some] using unexpired)
      simp only [Option.all_some,decide_eq_true_eq]
      omega

theorem unspentUnwritten (opened : LinksOnce s) (found : s.record jti = some record) (unspent : record.activated = false) :
    s.writers jti = none ∧ .activated jti ∉ s.log ∧ .ended jti ∉ s.log := by
  have unwritten : s.writers jti = none := by
    cases writer : s.writers jti with
    | none => rfl
    | some n =>
        have activated := opened.spent jti n writer record found
        rw [unspent] at activated
        cases activated
  refine ⟨unwritten,fun inside => ?_,fun ended => ?_⟩
  · obtain ⟨n,writer⟩ := opened.written jti inside
    rw [unwritten] at writer
    cases writer
  · rw [(opened.oneTime jti).gone ended] at found
    cases found

theorem upsertOpened {written : ImpersonationRecord} (opened : LinksOnce s) (found : s.record jti = some record)
    (unspent : record.activated = false) (activates : written.activated = true) : LinksOnce (s.upserted ttl n jti written) := by
  obtain ⟨unwritten,unreported,going⟩ := unspentUnwritten opened found unspent
  have there (other : String) (apart : other ≠ jti) : (s.upserted ttl n jti written).record other = s.record other :=
    (recordPut other).trans (if_neg apart)
  have own (after : ImpersonationRecord) (here : (s.upserted ttl n jti written).record jti = some after) : after = written := by
    have here := (recordPut jti).symm.trans here
    rw [if_pos rfl] at here
    obtain ⟨entry,live,rfl⟩ := Option.map_eq_some_iff.mp here
    rw [← Option.some.inj (Option.filter_eq_some_iff.mp live).1]
  refine ⟨fun other => ⟨(opened.oneTime other).once,(opened.oneTime other).last,fun ended => ?_⟩,
    fun other k writer after here => ?_,fun other inside => ?_,fun other ended => ?_⟩
  · rw [there other fun same => going (same ▸ ended)]
    exact (opened.oneTime other).gone ended
  · by_cases same : other = jti
    · subst same
      rw [own after here]
      exact activates
    · rw [there other same] at here
      simp only [ImpersonationStore.upserted,if_neg same] at writer
      exact opened.spent other k writer after here
  · obtain ⟨k,writer⟩ := opened.written other inside
    have apart : other ≠ jti := fun same => unreported (same ▸ inside)
    exact ⟨k,by simp only [ImpersonationStore.upserted,if_neg apart]; exact writer⟩
  · have apart : other ≠ jti := fun same => going (same ▸ ended)
    simp only [ImpersonationStore.upserted,if_neg apart]
    exact opened.since other ended

theorem upsertKept {written : ImpersonationRecord} (opened : LinksOnce s) (unspent : Unspent s (.upsert jti written))
    (activates : written.activated = true) : (linksContract n).guarantee s (s.upserted ttl n jti written) ∧
      (s.upserted ttl n jti written).writers jti = some n ∧ .activated jti ∉ (s.upserted ttl n jti written).log := by
  obtain ⟨record,found,unspent⟩ := unspent
  obtain ⟨unwritten,unreported,going⟩ := unspentUnwritten opened found unspent
  have after : LinksOnce (s.upserted ttl n jti written) := upsertOpened opened found unspent activates
  refine ⟨⟨fun _ => after,fun m other => ⟨fun _ => after,fun link own => ?_,fun _ _ => id⟩⟩,if_pos rfl,unreported⟩
  have apart : link ≠ jti := by
    rintro rfl
    rw [unwritten] at own
    cases own
  simp only [ImpersonationStore.upserted,if_neg apart]
  exact own

theorem cookieOpened (opened : LinksOnce s) (writer : s.writers jti = some n) (unreported : .activated jti ∉ s.log)
    (going : .ended jti ∉ s.log) : LinksOnce {s with log := .activated jti :: s.log} := by
  refine ⟨fun link => ⟨?_,fun later earlier same => ?_,fun ended => ?_⟩,opened.spent,fun link inside => ?_,fun link ended => ?_⟩
  · rw [List.count_cons]
    by_cases same : link = jti
    · subst same
      rw [List.count_eq_zero_of_not_mem unreported]
      simp
    · have other : (ImpersonationEvent.activated jti == .activated link) = false := by simp [Ne.symm same]
      rw [other]
      exact (opened.oneTime link).once
  · cases later with
    | nil => cases same
    | cons event rest =>
        obtain ⟨rfl,before⟩ := List.cons.inj same
        have apart : link ≠ jti := by
          rintro rfl
          exact going (by rw [before]; simp)
        intro inside
        rcases List.mem_cons.mp inside with same | inside
        · exact apart (by cases same; rfl)
        · exact (opened.oneTime link).last rest earlier before inside
  · exact (opened.oneTime link).gone ((List.mem_cons.mp ended).resolve_left nofun)
  · rcases List.mem_cons.mp inside with same | inside
    · cases same
      exact ⟨n,writer⟩
    · exact opened.written link inside
  · exact opened.since link ((List.mem_cons.mp ended).resolve_left nofun)

theorem cookieKept (opened : LinksOnce s) (writer : s.writers jti = some n) (unreported : .activated jti ∉ s.log)
    (unended : s.endedSince jti = false) : (linksContract n).guarantee s {s with log := .activated jti :: s.log} := by
  have going : .ended jti ∉ s.log := fun ended => absurd (opened.since jti ended) (by simp [unended])
  have after := cookieOpened opened writer unreported going
  refine ⟨fun _ => after,fun m other => ⟨fun _ => after,fun _ => id,fun link own before inside => ?_⟩⟩
  rcases List.mem_cons.mp inside with same | inside
  · cases same
    exact other (Option.some.inj (own.symm.trans writer))
  · exact before inside

theorem delOpened (opened : LinksOnce s) (jti : String) : LinksOnce (s.removed jti) := by
  have there (link : String) : (s.put jti none).record link = if link = jti then none else s.record link := recordPut link
  refine ⟨fun link => ⟨?_,fun later earlier same => ?_,fun ended => ?_⟩,fun link k writer record found => ?_,fun link inside => ?_,
    fun link ended => ?_⟩
  · show (ImpersonationEvent.ended jti :: s.log).count (.activated link) ≤ 1
    rw [List.count_cons]
    have other : (ImpersonationEvent.ended jti == .activated link) = false := rfl
    rw [other]
    exact (opened.oneTime link).once
  · cases later with
    | nil => exact List.not_mem_nil
    | cons event rest =>
        obtain ⟨rfl,before⟩ := List.cons.inj same
        intro inside
        exact (opened.oneTime link).last rest earlier before ((List.mem_cons.mp inside).resolve_left nofun)
  · refine (there link).trans ?_
    split
    · rfl
    · rename_i apart
      apply (opened.oneTime link).gone
      rcases List.mem_cons.mp ended with same | before
      · cases same
        exact absurd rfl apart
      · exact before
  · have found := (there link).symm.trans found
    split at found
    · cases found
    · exact opened.spent link k writer record found
  · exact opened.written link ((List.mem_cons.mp inside).resolve_left nofun)
  · unfold ImpersonationStore.removed
    dsimp only
    split
    · rfl
    · rename_i apart
      refine opened.since link ((List.mem_cons.mp ended).resolve_left fun same => ?_)
      cases same
      exact apart rfl

end Steps

section Requests
variable {ttl n : Nat} {α : Type} {F : ImpersonationStore → Prop}

def Opens (ttl n : Nat) {α : Type} (F : ImpersonationStore → Prop) (p : Impersonating α) : Prop :=
  Triple (answerImpersonations ttl n) (linksContract n) (fun s => LinksOnce s ∧ F s) p fun _ _ => True

theorem opensPure {a : α} (told : Stable (linksContract n) fun s => LinksOnce s ∧ F s) : Opens ttl n F (.pure a) :=
  triplePure told fun _ _ => trivial

theorem opensThrow {e : JsError} (told : Stable (linksContract n) fun s => LinksOnce s ∧ F s) :
    Opens ttl n F (.throw e : Impersonating α) := tripleThrow told fun _ _ => trivial

theorem opensAsk {c : ImpersonationCall} {f : ImpersonationAnswer c → Impersonating α}
    (G : ImpersonationAnswer c → ImpersonationStore → Prop)
    (told : Stable (linksContract n) fun s => LinksOnce s ∧ F s)
    (call : ∀ s, LinksOnce s → F s → Unspent s c → (linksContract n).guarantee s (answerImpersonations ttl n () c s).2 ∧
      G (answerImpersonations ttl n () c s).1 (answerImpersonations ttl n () c s).2)
    (next : ∀ a, Opens ttl n (G a) (f a)) : Opens ttl n F (ask (I := impersonations) c >>= f) := by
  apply tripleAsk (fun a s => LinksOnce s ∧ G a s) told
  · intro s _ holds unspent
    obtain ⟨kept,answered⟩ := call s holds.1 holds.2 unspent
    exact ⟨kept,kept.1 holds.1,answered⟩
  · exact next

theorem nothingTold : Stable (linksContract n) fun s => LinksOnce s ∧ True :=
  fun _ _ moved holds => ⟨moved.opened holds.1,trivial⟩

theorem writtenTold {jti : String} :
    Stable (linksContract n) fun s => LinksOnce s ∧ (s.writers jti = some n ∧ .activated jti ∉ s.log) :=
  fun _ _ moved ⟨opened,own,unreported⟩ => ⟨moved.opened opened,moved.own jti own,moved.unreported jti own unreported⟩

theorem lookKept (s : ImpersonationStore) : (linksContract n).guarantee s s := ⟨id,fun _ _ => mindsSelf s⟩

theorem activateOpens (notifications : Bool) (jti : String) :
    Opens ttl n (fun _ => True) (SessionService.activateImpersonation notifications jti) := by
  unfold SessionService.activateImpersonation
  apply opensAsk (fun _ _ => True) nothingTold
  · exact fun s _ _ _ => ⟨lookKept s,trivial⟩
  · intro answer
    cases answer with
    | none => exact opensPure nothingTold
    | some impersonation =>
        simp only
        split
        · exact opensPure nothingTold
        · apply opensAsk (fun _ s => s.writers jti = some n ∧ .activated jti ∉ s.log) nothingTold
          · exact fun s opened _ unspent => upsertKept opened unspent rfl
          · intro _
            have rest (found : Bool) : Opens ttl n (fun s => s.writers jti = some n ∧ .activated jti ∉ s.log)
                (if found then do
                    ask (I := impersonations) (.setCookie jti)
                    .pure true
                  else .throw (.other "findAccount failed") : Impersonating Bool) := by
              cases found with
              | true =>
                  apply opensAsk (fun _ _ => True) writtenTold
                  · exact fun s opened own unended => ⟨cookieKept opened own.1 own.2 unended,trivial⟩
                  · exact fun _ => opensPure nothingTold
              | false => exact opensThrow writtenTold
            cases notifications with
            | true =>
                apply opensAsk (fun _ s => s.writers jti = some n ∧ .activated jti ∉ s.log) writtenTold
                · exact fun s _ own _ => ⟨lookKept s,own⟩
                · exact rest
            | false => exact rest true

theorem requestOpens (request : ImpersonationRequest) : Opens ttl n (fun _ => True) request.program := by
  cases request with
  | visit hasCookies notifications jti =>
      cases hasCookies with
      | true => exact opensPure nothingTold
      | false =>
        intro s holds
        apply soundBind mindsSelf
        apply soundMono (activateOpens notifications jti s holds)
        intro r t _
        cases r with
        | ok activated => exact fun _ _ => trivial
        | error e => trivial
  | finish cookie =>
      apply opensAsk (fun _ _ => True) nothingTold
      · exact fun s _ _ _ => ⟨lookKept s,trivial⟩
      · intro _
        apply opensAsk (f := Program.pure) (fun _ _ => True) nothingTold
        · intro s opened _ _
          have after := delOpened opened (cookie.getD "undefined")
          refine ⟨⟨fun _ => after,fun m _ => mindsUnwritten (fun _ => after) rfl fun jti inside => ?_⟩,trivial⟩
          exact (List.mem_cons.mp inside).resolve_left nofun
        · exact fun _ => opensPure nothingTold

end Requests

namespace ImpersonationPool
variable {ttl : Nat} {pool : ImpersonationPool}

structure Keeping (ttl : Nat) (pool : ImpersonationPool) : Prop where
  steady : pool.Steady (answerImpersonations ttl) ImpersonationCall.awaits linksContract
  opened : LinksOnce pool.state

theorem stepKeeping {move : ImpersonationMove} (keeping : Keeping ttl pool) (undoubled : Undoubled pool move) :
    Keeping ttl (step ttl pool move) := by
  have edited {f : ImpersonationStore → ImpersonationStore} (moved : ∀ n, Minds n pool.state (f pool.state)) :
      Keeping ttl (pool.edit f) :=
    ⟨Pool.steadyEdit (fun _ _ _ _ => mindsTrans) keeping.steady moved,(moved 0).opened keeping.opened⟩
  cases move with
  | request request =>
      have awaited (c : ImpersonationCall) : c.awaits ≠ false := nofun
      have opens : Opens ttl pool.threads.length (fun _ => True) request.program := requestOpens request
      have keeps := soundKeeps (fun c instant => absurd instant (awaited c)) (lookKept pool.state)
        (opens pool.state ⟨keeping.opened,trivial⟩)
      obtain ⟨steady,kept⟩ := Pool.steadySpawn (fun _ _ _ _ => mindsTrans) mindsApart keeping.steady keeps
      exact ⟨steady,kept.1 keeping.opened⟩
  | proceed n accounts =>
      have faced : Keeping ttl (facing accounts pool) := edited (f := fun s => {s with accounts := accounts})
        fun n => mindsUnwritten (openedFewer (fun _ _ => id) rfl rfl rfl) rfl fun _ => id
      obtain ⟨steady,kept⟩ := Pool.steadyProceed (fun _ _ _ _ => mindsTrans) mindsApart (w := ()) (mindsSelf _) (lookKept _)
        faced.steady undoubled
      exact ⟨steady,kept.1 faced.opened⟩
  | pass ms =>
      exact edited (f := (·.pass ms)) fun n =>
        mindsUnwritten (openedFewer (fun jti _ => passFewer ms jti) rfl rfl rfl) rfl fun _ => id

theorem runKeeping {moves : List ImpersonationMove} (keeping : Keeping ttl pool)
    (undoubled : EachStep (step ttl) Undoubled moves pool) : Keeping ttl (run ttl moves pool) :=
  eachStepKeeps (Keeping ttl) (fun _ _ => stepKeeping) keeping undoubled

theorem beginKeeping (records : String → Option (ImpersonationRecord × Option Nat)) : Keeping ttl (begin records) := by
  refine ⟨Pool.steadyEmpty _,fun jti => ⟨Nat.zero_le _,fun later earlier same => ?_,nofun⟩,nofun,nofun,nofun⟩
  have empty : [] = later ++ .ended jti :: earlier := same
  cases later <;> cases empty

end ImpersonationPool

/- In every run whose activations are written over the link as it was read, and without an end before their cookies, each link is
activated once at most, and neither activated nor recreated after its end. -/
theorem linksOneTime (ttl : Nat) (records : String → Option (ImpersonationRecord × Option Nat)) (moves : List ImpersonationMove)
    (undoubled : EachStep (ImpersonationPool.step ttl) ImpersonationPool.Undoubled moves (ImpersonationPool.begin records))
    (jti : String) : OneTime (ImpersonationPool.run ttl moves (ImpersonationPool.begin records)).state jti :=
  (ImpersonationPool.runKeeping (ImpersonationPool.beginKeeping records) undoubled).opened.oneTime jti

def aliceLink : String → Option (ImpersonationRecord × Option Nat) := fun jti =>
  if jti = "link" then some (⟨"admin","alice",false⟩,some 3600000) else none

def visitLink : ImpersonationMove := .request (.visit false false "link")

def turns (order : List Nat) : List ImpersonationMove := order.map fun n => .proceed n true

/- Both requests read the link before either writes it. -/
theorem activatedTwice : ¬ ∀ (ttl : Nat) (records : String → Option (ImpersonationRecord × Option Nat))
    (moves : List ImpersonationMove) (jti : String),
    OneTime (ImpersonationPool.run ttl moves (ImpersonationPool.begin records)).state jti := by
  intro always
  have once := (always 3600 aliceLink ([visitLink,visitLink] ++ turns [0,1,0,0,1,1]) "link").once
  exact absurd once (by decide +kernel)

theorem activatedOnce : OneTime (ImpersonationPool.run 3600 ([visitLink,visitLink] ++ turns [0,0,0,1])
    (ImpersonationPool.begin aliceLink)).state "link" ∧
    .activated "link" ∈ (ImpersonationPool.run 3600 ([visitLink,visitLink] ++ turns [0,0,0,1])
      (ImpersonationPool.begin aliceLink)).state.log := by
  have undoubled : EachStep (ImpersonationPool.step 3600) ImpersonationPool.Undoubled ([visitLink,visitLink] ++ turns [0,0,0,1])
      (ImpersonationPool.begin aliceLink) :=
    ⟨trivial,trivial,trivial,⟨⟨"admin","alice",false⟩,rfl,rfl⟩,rfl,trivial,trivial⟩
  exact ⟨linksOneTime 3600 aliceLink _ undoubled "link",by decide +kernel⟩

end Passmower
