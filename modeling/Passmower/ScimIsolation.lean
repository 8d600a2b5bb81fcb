import Passmower.ScimScope
import Passmower.Resumption.Paired

/-! Isolation of the SCIM connections. They share the directory and the accounts their subjects are linked
to; what a request of one connection reads, answers and changes is told by that connection's records alone. -/
namespace Passmower
open JavaScript Resumption Program

structure ScimProjection where
  sub : Option Json := none
  active : Bool
  groups : List Group

def ScimConnection.sourceKey (connection : ScimConnection) : String := "scim-" ++ connection.uid

/- The directory, the accounts its subjects are linked to, and the identity entries of the accounts. -/
structure ScimWorld where
  server : ScimServer
  links : String → Option String := fun _ => none
  accounts : String → Option (List (String × ScimProjection)) := fun _ => none

def emptyWorld : ScimWorld := {server := ⟨⟨fun _ => [],fun _ => List.nodup_nil⟩,[],0⟩}

namespace ScimWorld
variable (w : ScimWorld)

def withProjection (key : String) (identity : ScimIdentity) (entries : List (String × ScimProjection)) :
    List (String × ScimProjection) :=
  mapSet key ⟨identity.externalId <|> (mapGet key entries).bind (·.sub),identity.isActive,identity.groups⟩ entries

/- `ScimLinkService.project`: nothing is called for a subject that is not linked. -/
def project (connection : ScimConnection) (resource : ScimResource) : Bool × ScimWorld :=
  match if resource.kind = .subject then w.links resource.accountId else none with
  | none => (true,w)
  | some accountId => match w.accounts accountId with
    | none => (false,{w with server := w.server.next})
    | some entries => if w.server.answers then
          (true,{w with
            server := w.server.next
            accounts := fun id => if id = accountId then
              some (withProjection connection.sourceKey resource.identity entries) else w.accounts id})
        else (false,{w with server := w.server.next})

end ScimWorld

def ScimWorld.create (time : String) (kind : ScimKind) (name : String) (record : ScimRecord) (w : ScimWorld) :
    Option ScimResource × ScimWorld :=
  let out := answerScim time (.create kind name record) w.server
  (out.1,{w with
    server := out.2
    links := fun n => if kind = .subject ∧ n = name ∧ out.1.isSome = true then none else w.links n})

def ScimWorld.written (kind : ScimKind) (name : String) (record : ScimRecord) (w : ScimWorld) : ScimWorld :=
  {w with server := {w.server.next with directory := w.server.directory.put kind name record}}

def ScimWorld.created (kind : ScimKind) (name : String) (record : ScimRecord) (w : ScimWorld) : ScimWorld :=
  {w.written kind name record with links := fun n => if kind = .subject ∧ n = name then none else w.links n}

theorem createEq {time : String} {kind : ScimKind} {name : String} {record : ScimRecord} {w : ScimWorld} :
    w.create time kind name record = if w.server.answers && (w.server.directory.find kind name).isNone then
      (some (ScimDirectory.mapped kind (name,record)),w.created kind name record)
    else (none,{w with server := w.server.next}) := by
  unfold ScimWorld.create ScimWorld.created ScimWorld.written answerScim
  cases made : w.server.answers && (w.server.directory.find kind name).isNone with
  | true => simp only [made,if_true,Option.isSome_some,and_true]
  | false => simp only [made,Bool.false_eq_true,if_false,Option.isSome_none,and_false]

def answerTenant (connection : ScimConnection) : Handler scim String ScimWorld := fun time c w => match c with
  | .project resource => w.project connection resource
  | .create kind name record => w.create time kind name record
  | c =>
      let out := answerScim time c w.server
      (out.1,{w with server := out.2})

structure TenantEvent where
  command : ScimCommand
  answered : List Bool := []
  times : List String := []

section Runs
variable (digest : String → String) (connection : ScimConnection)

def ScimWorld.expecting (w : ScimWorld) (answered : List Bool) : ScimWorld :=
  {w with server := {w.server with upcoming := answered}}

def ScimWorld.serve (w : ScimWorld) (event : TenantEvent) : Except ScimFailure ScimResponse × ScimWorld :=
  let out := run (answerTenant connection) (event.command.respond digest connection) event.times
    (w.expecting event.answered)
  (out.1,out.2.2)

def ScimWorld.session : List TenantEvent → ScimWorld → List (Except ScimFailure ScimResponse) × ScimWorld
  | [],w => ([],w)
  | event :: rest,w =>
      let out := w.serve digest connection event
      let more := session rest out.2
      (out.1 :: more.1,more.2)

end Runs

def PlainUid (uid : String) : Prop := '\x00' ∉ uid.toList

/- The worlds that requests of any connections come to; subjects are linked, and accounts come, change and
go, by themselves. -/
inductive ScimReached (digest : String → String) : ScimWorld → Prop where
  | empty : ScimReached digest emptyWorld
  | serve {w : ScimWorld} (connection : ScimConnection) (plain : PlainUid connection.uid) (event : TenantEvent) :
      ScimReached digest w → ScimReached digest (w.serve digest connection event).2
  | others {w : ScimWorld} (links : String → Option String)
      (accounts : String → Option (List (String × ScimProjection))) :
      ScimReached digest w → ScimReached digest {w with links := links, accounts := accounts}

def ownRecords (uid : String) (directory : ScimDirectory) (kind : ScimKind) : List (String × ScimRecord) :=
  (directory.records kind).filter (·.2.connectionUid = uid)

structure Agree (connection : ScimConnection) (w w' : ScimWorld) : Prop where
  records : ∀ kind, ownRecords connection.uid w.server.directory kind = ownRecords connection.uid w'.server.directory kind
  links : ∀ name, (w.server.directory.held connection.uid .subject name).isSome → w.links name = w'.links name
  accounts : ∀ id, (w.accounts id).map (mapGet connection.sourceKey) = (w'.accounts id).map (mapGet connection.sourceKey)

structure Untouched (connection : ScimConnection) (w w' : ScimWorld) : Prop where
  records : ∀ kind, ownRecords connection.uid w'.server.directory kind = ownRecords connection.uid w.server.directory kind
  links : ∀ name, (w.server.directory.held connection.uid .subject name).isSome → w'.links name = w.links name
  accounts : ∀ id, (w'.accounts id).map (mapGet connection.sourceKey) = (w.accounts id).map (mapGet connection.sourceKey)

def OwnNames (digest : String → String) (directory : ScimDirectory) : Prop := ∀ kind name record,
  directory.find kind name = some record → PlainUid record.connectionUid ∧
    ∃ externalId, name = resourceName digest kind record.connectionUid externalId

section Records
variable {connection other : ScimConnection} {directory : ScimDirectory} {kind : ScimKind} {name uid : String}
  {record : ScimRecord} {identity : ScimIdentity} {w w' v : ScimWorld}

theorem heldOwn : directory.held uid kind name = (mapGet name (ownRecords uid directory kind)).map (·.identity) := by
  unfold ownRecords
  rw [mapGetFilter (directory.unique kind)]
  rfl

theorem agreeHeld (agree : Agree connection w w') : w.server.directory.held connection.uid kind name =
    w'.server.directory.held connection.uid kind name := by
  rw [heldOwn,heldOwn,agree.records]

theorem ownPut (before : ∀ old, directory.find kind name = some old → old.connectionUid = uid) (k : ScimKind) :
    ownRecords uid (directory.put kind name ⟨uid,identity⟩) k =
      if k = kind then mapSet name ⟨uid,identity⟩ (ownRecords uid directory kind) else ownRecords uid directory k := by
  unfold ownRecords ScimDirectory.put
  by_cases same : k = kind
  · subst same
    simp only [if_true]
    exact mapSetFilter (by simp) fun old found => by simpa using before old found
  · simp [same]

theorem otherPut (before : ∀ old, directory.find kind name = some old → old.connectionUid ≠ uid)
    (apart : record.connectionUid ≠ uid) (k : ScimKind) :
    ownRecords uid (directory.put kind name record) k = ownRecords uid directory k := by
  unfold ownRecords ScimDirectory.put
  by_cases same : k = kind
  · subst same
    simp only [if_true]
    exact mapSetFilterOut (by simpa using apart) fun old found => by simpa using before old found
  · simp [same]

theorem untouchedSelf (w : ScimWorld) : Untouched connection w w := ⟨fun _ => rfl,fun _ _ => rfl,fun _ => rfl⟩

theorem untouchedTrans (first : Untouched connection w v) (second : Untouched connection v w') :
    Untouched connection w w' where
  records kind := (second.records kind).trans (first.records kind)
  links name held := by
    have middle : (v.server.directory.held connection.uid .subject name).isSome := by
      rw [heldOwn,first.records,← heldOwn]
      exact held
    exact (second.links name middle).trans (first.links name held)
  accounts id := (second.accounts id).trans (first.accounts id)

theorem keyApart (apart : other.uid ≠ connection.uid) : connection.sourceKey ≠ other.sourceKey := by
  intro same
  have texts := congrArg String.toList same
  simp only [ScimConnection.sourceKey,String.toList_append,List.append_cancel_left_eq] at texts
  exact apart (String.toList_inj.mp texts).symm

end Records

section Names
variable {digest : String → String} {uid uid' text text' : String} {kind kind' : ScimKind}

theorem nameOwner (injective : Function.Injective digest) (plain : PlainUid uid) (plain' : PlainUid uid')
    (same : resourceName digest kind uid text = resourceName digest kind' uid' text') : kind = kind' ∧ uid = uid' := by
  have texts := congrArg String.toList same
  simp only [resourceName,ScimService.resourceId,String.toList_append,List.append_assoc,
    List.append_cancel_left_eq] at texts
  have kinds : kind = kind' := by
    cases kind <;> cases kind' <;> first | rfl | simp [ScimKind.letter] at texts
  subst kinds
  simp only [List.append_cancel_left_eq] at texts
  have inputs := congrArg String.toList (injective (String.toList_inj.mp texts))
  have separator : "\x00".toList = ['\x00'] := rfl
  simp only [String.toList_append,separator,List.append_assoc,List.singleton_append] at inputs
  exact ⟨rfl,String.toList_inj.mp (untilSeparator plain plain' inputs).1⟩

theorem ownerOf (injective : Function.Injective digest) {directory : ScimDirectory} (names : OwnNames digest directory)
    (plain : PlainUid uid) {record : ScimRecord} (found : directory.find kind (resourceName digest kind uid text) = some record) :
    record.connectionUid = uid := by
  obtain ⟨plain',externalId,same⟩ := names kind _ record found
  exact (nameOwner injective plain' plain same.symm).2

end Names

structure Confined (digest : String → String) (connection : ScimConnection) (w w' : ScimWorld) : Prop where
  names : OwnNames digest w.server.directory → OwnNames digest w'.server.directory
  others : ∀ other : ScimConnection, other.uid ≠ connection.uid → Untouched other w w'

structure Alike (digest : String → String) (connection : ScimConnection) (w w' : ScimWorld) : Prop where
  agree : Agree connection w w'
  upcoming : w.server.upcoming = w'.server.upcoming
  names : OwnNames digest w.server.directory
  names' : OwnNames digest w'.server.directory

section Operations
variable {digest : String → String} {connection other : ScimConnection} {w w' v : ScimWorld} {kind : ScimKind}
  {name id : String} {identity : ScimIdentity} {resource : ScimResource}

theorem confinedSelf (w : ScimWorld) : Confined digest connection w w := ⟨id,fun _ _ => untouchedSelf w⟩

theorem confinedTrans (first : Confined digest connection w v) (second : Confined digest connection v w') :
    Confined digest connection w w' :=
  ⟨second.names ∘ first.names,fun other apart => untouchedTrans (first.others other apart) (second.others other apart)⟩

theorem confinedRead (directory : w'.server.directory = w.server.directory) (links : w'.links = w.links)
    (accounts : w'.accounts = w.accounts) : Confined digest connection w w' where
  names names := by rw [directory]; exact names
  others other _ := ⟨fun kind => by rw [directory],fun name _ => by rw [links],fun id => by rw [accounts]⟩

theorem alikeRead {u u' : ScimWorld} (alike : Alike digest connection w w') (directory : u.server.directory = w.server.directory)
    (directory' : u'.server.directory = w'.server.directory) (links : u.links = w.links) (links' : u'.links = w'.links)
    (accounts : u.accounts = w.accounts) (accounts' : u'.accounts = w'.accounts)
    (upcoming : u.server.upcoming = u'.server.upcoming) : Alike digest connection u u' where
  agree := by
    refine ⟨fun kind => ?_,fun name => ?_,fun id => ?_⟩
    · rw [directory,directory']
      exact alike.agree.records kind
    · rw [directory,links,links']
      exact alike.agree.links name
    · rw [accounts,accounts']
      exact alike.agree.accounts id
  upcoming := upcoming
  names := by rw [directory]; exact alike.names
  names' := by rw [directory']; exact alike.names'

theorem alikeAnswers (alike : Alike digest connection w w') : w.server.answers = w'.server.answers := by
  simp only [ScimServer.answers,alike.upcoming]

theorem alikeNext (alike : Alike digest connection w w') :
    w.server.next.upcoming = w'.server.next.upcoming := congrArg List.tail alike.upcoming

theorem listedOwn : (w.server.directory.resources kind).filter (·.connectionUid = connection.uid) =
    (ownRecords connection.uid w.server.directory kind).map (ScimDirectory.mapped kind) := by
  unfold ScimDirectory.resources ownRecords
  rw [List.filter_map]
  rfl

theorem gottenOwn {directory : ScimDirectory} :
    (directory.resource kind name).filter (·.connectionUid = connection.uid) =
      (directory.held connection.uid kind name).map fun identity => ⟨name,kind,connection.uid,identity⟩ := by
  unfold ScimDirectory.resource ScimDirectory.held
  cases directory.find kind name with
  | none => rfl
  | some record =>
      by_cases own : record.connectionUid = connection.uid
      · simp [ScimDirectory.mapped,Option.filter_some,own]
      · simp [ScimDirectory.mapped,Option.filter_some,own]

section Projecting

theorem projectConfined (resource : ScimResource) (w : ScimWorld) : Confined digest connection w (w.project connection resource).2 := by
  unfold ScimWorld.project
  split
  · exact confinedSelf w
  · rename_i accountId _
    split
    · exact confinedRead rfl rfl rfl
    · rename_i entries found
      split
      · refine ⟨id,fun other apart => ⟨fun _ => rfl,fun _ _ => rfl,fun id => ?_⟩⟩
        by_cases same : id = accountId
        · subst same
          simp only [if_true,found,Option.map_some]
          congr 1
          simp [ScimWorld.withProjection,keyApart apart]
        · simp [same]
      · exact confinedRead rfl rfl rfl

theorem projectAlike (alike : Alike digest connection w w')
    (own : resource.kind = .subject → (w.server.directory.held connection.uid .subject resource.accountId).isSome) :
    (w.project connection resource).1 = (w'.project connection resource).1 ∧
      Alike digest connection (w.project connection resource).2 (w'.project connection resource).2 := by
  have link : (if resource.kind = .subject then w.links resource.accountId else none) =
      if resource.kind = .subject then w'.links resource.accountId else none := by
    split
    · exact alike.agree.links _ (own (by assumption))
    · rfl
  have answers := alikeAnswers alike
  have next := alikeNext alike
  unfold ScimWorld.project
  rw [link,answers]
  cases (if resource.kind = .subject then w'.links resource.accountId else none) with
  | none => exact ⟨rfl,alike⟩
  | some accountId =>
      have same := alike.agree.accounts accountId
      cases here : w.accounts accountId with
      | none =>
          rw [here] at same
          cases there : w'.accounts accountId with
          | none =>
              simp only [here,there]
              exact ⟨trivial,alikeRead alike rfl rfl rfl rfl rfl rfl next⟩
          | some entries' => simp [there] at same
      | some entries =>
          rw [here] at same
          cases there : w'.accounts accountId with
          | none => simp [there] at same
          | some entries' =>
              rw [there] at same
              have entry : mapGet connection.sourceKey entries = mapGet connection.sourceKey entries' := by
                simpa using same
              simp only [here,there]
              split
              · refine ⟨rfl,⟨alike.agree.records,alike.agree.links,fun id => ?_⟩,next,alike.names,alike.names'⟩
                by_cases equal : id = accountId
                · simp [equal,ScimWorld.withProjection,entry]
                · simpa [equal] using alike.agree.accounts id
              · exact ⟨rfl,alikeRead alike rfl rfl rfl rfl rfl rfl next⟩

end Projecting

section Writing
variable {time : String} (injective : Function.Injective digest) (plain : PlainUid connection.uid)
include injective plain

theorem findOwn {externalId : String} (names : OwnNames digest w.server.directory)
    (named : name = resourceName digest kind connection.uid externalId) :
    w.server.directory.find kind name = (w.server.directory.held connection.uid kind name).map (⟨connection.uid,·⟩) := by
  subst named
  unfold ScimDirectory.held
  cases found : w.server.directory.find kind (resourceName digest kind connection.uid externalId) with
  | none => rfl
  | some record =>
      have own := ownerOf injective names plain found
      obtain ⟨owner,identity⟩ := record
      subst own
      simp only [Option.filter_some,decide_true,if_true,Option.map_some]

omit injective

theorem putConfined (named : ∃ externalId, name = resourceName digest kind connection.uid externalId)
    (before : ∀ old, w.server.directory.find kind name = some old → old.connectionUid = connection.uid)
    (directory : w'.server.directory = w.server.directory.put kind name ⟨connection.uid,identity⟩)
    (links : ∀ n, (w.server.directory.find .subject n).isSome → w'.links n = w.links n)
    (accounts : w'.accounts = w.accounts) : Confined digest connection w w' where
  names names k n record found := by
    rw [directory,findPut] at found
    split at found
    · rename_i same
      obtain ⟨rfl,rfl⟩ := same
      cases Option.some.inj found
      exact ⟨plain,named⟩
    · exact names k n record found
  others other apart := by
    refine ⟨fun k => ?_,fun n held => ?_,fun id => by rw [accounts]⟩
    · rw [directory]
      refine otherPut (fun old found => ?_) apart.symm k
      rw [before old found]
      exact apart.symm
    · obtain ⟨old,stored⟩ := Option.isSome_iff_exists.mp held
      exact links n (by simp [heldRecord.mp stored])

end Writing

section Calls

theorem putAgree {u u' : ScimWorld} (agree : Agree connection w w')
    (before : ∀ old, w.server.directory.find kind name = some old → old.connectionUid = connection.uid)
    (before' : ∀ old, w'.server.directory.find kind name = some old → old.connectionUid = connection.uid)
    (directory : u.server.directory = w.server.directory.put kind name ⟨connection.uid,identity⟩)
    (directory' : u'.server.directory = w'.server.directory.put kind name ⟨connection.uid,identity⟩)
    (links : ∀ n, (kind = .subject ∧ name = n) ∨ (w.server.directory.held connection.uid .subject n).isSome →
      u.links n = u'.links n)
    (accounts : u.accounts = w.accounts) (accounts' : u'.accounts = w'.accounts) : Agree connection u u' where
  records k := by
    rw [directory,directory',ownPut before,ownPut before',agree.records,agree.records]
  links n held := by
    rw [directory,heldPut] at held
    split at held
    · rename_i same
      exact links n (.inl ⟨same.1.symm,same.2⟩)
    · exact links n (.inr held)
  accounts id := by
    rw [accounts,accounts']
    exact agree.accounts id

theorem createTwin (time : String) (identity : ScimIdentity) (injective : Function.Injective digest)
    (plain : PlainUid connection.uid)
    (alike : Alike digest connection w w') (named : ∃ externalId, name = resourceName digest kind connection.uid externalId) :
    let made := w.create time kind name ⟨connection.uid,identity⟩
    let made' := w'.create time kind name ⟨connection.uid,identity⟩
    made.1 = made'.1 ∧ Alike digest connection made.2 made'.2 ∧ Confined digest connection w made.2 ∧
      ∀ created, made.1 = some created → created = ⟨name,kind,connection.uid,identity⟩ ∧
        made.2.server.directory.held connection.uid kind name = some identity := by
  obtain ⟨externalId,shape⟩ := named
  have free : (w.server.directory.find kind name).isNone = (w'.server.directory.find kind name).isNone := by
    rw [findOwn injective plain alike.names shape,findOwn injective plain alike.names' shape,agreeHeld alike.agree]
  simp only [createEq]
  rw [← free,← alikeAnswers alike]
  split
  · rename_i made
    simp only [Bool.and_eq_true,Option.isNone_iff_eq_none] at made
    have absent : w'.server.directory.find kind name = none := by simpa [made.2] using free.symm
    have confined {u : ScimWorld} (empty : u.server.directory.find kind name = none) :
        Confined digest connection u (u.created kind name ⟨connection.uid,identity⟩) := by
      refine putConfined plain ⟨externalId,shape⟩ (by simp [empty]) rfl (fun n held => ?_) rfl
      refine if_neg fun same => ?_
      obtain ⟨rfl,rfl⟩ := same
      simp [empty] at held
    have agree : Agree connection (w.created kind name ⟨connection.uid,identity⟩)
        (w'.created kind name ⟨connection.uid,identity⟩) := by
      refine putAgree alike.agree (by simp [made.2]) (by simp [absent]) rfl rfl (fun n asked => ?_) rfl rfl
      simp only [ScimWorld.created]
      split
      · rfl
      · rename_i new
        refine alike.agree.links n (asked.resolve_left fun same => new ⟨same.1,same.2.symm⟩)
    refine ⟨rfl,⟨agree,alikeNext alike,(confined made.2).names alike.names,(confined absent).names alike.names'⟩,
      confined made.2,fun created same => ?_⟩
    cases Option.some.inj same
    exact ⟨rfl,by simp [ScimWorld.created,ScimWorld.written]⟩
  · exact ⟨rfl,alikeRead alike rfl rfl rfl rfl rfl rfl (alikeNext alike),confinedRead rfl rfl rfl,
      fun _ unmade => by cases unmade⟩

theorem heldOwner (held : (w.server.directory.held connection.uid kind name).isSome) :
    ∃ old, w.server.directory.find kind name = some ⟨connection.uid,old⟩ := by
  obtain ⟨old,stored⟩ := Option.isSome_iff_exists.mp held
  exact ⟨old,heldRecord.mp stored⟩

theorem patchTwin (time : String) (identity : ScimIdentity) (plain : PlainUid connection.uid) (alike : Alike digest connection w w')
    (held : (w.server.directory.held connection.uid kind name).isSome) :
    let out := answerTenant connection time (.patch kind name identity) w
    let out' := answerTenant connection time (.patch kind name identity) w'
    out.1 = out'.1 ∧ Alike digest connection out.2 out'.2 ∧ Confined digest connection w out.2 ∧
      ∀ updated, out.1 = some updated → updated = ⟨name,kind,connection.uid,identity⟩ ∧
        out.2.server.directory.held connection.uid kind name = some identity := by
  obtain ⟨old,stored⟩ := heldOwner held
  obtain ⟨old',stored'⟩ := heldOwner (agreeHeld alike.agree ▸ held)
  have named := (alike.names kind name _ stored).2
  have named' := (alike.names' kind name _ stored').2
  have confined {u : ScimWorld} {old : ScimIdentity} (stored : u.server.directory.find kind name = some ⟨connection.uid,old⟩)
      (named : ∃ externalId, name = resourceName digest kind connection.uid externalId) :
      Confined digest connection u (u.written kind name ⟨connection.uid,identity⟩) :=
    putConfined plain named (by simp [stored]) rfl (fun _ _ => rfl) rfl
  have agree : Agree connection (w.written kind name ⟨connection.uid,identity⟩)
      (w'.written kind name ⟨connection.uid,identity⟩) := by
    refine putAgree alike.agree (by simp [stored]) (by simp [stored']) rfl rfl (fun n asked => ?_) rfl rfl
    refine alike.agree.links n (asked.elim (fun same => ?_) id)
    obtain ⟨rfl,rfl⟩ := same
    exact held
  simp only [answerTenant,answerScim,stored,stored']
  rw [← alikeAnswers alike]
  split
  · refine ⟨rfl,⟨agree,alikeNext alike,(confined stored named).names alike.names,
      (confined stored' named').names alike.names'⟩,confined stored named,fun updated same => ?_⟩
    cases Option.some.inj same
    exact ⟨rfl,by simp⟩
  · exact ⟨rfl,alikeRead alike rfl rfl rfl rfl rfl rfl (alikeNext alike),confinedRead rfl rfl rfl,
      fun _ unmade => by cases unmade⟩

end Calls

section Programs
variable {α : Type}

def Twin (digest : String → String) (connection : ScimConnection) (p : Scim α) (w w' : ScimWorld) : Prop :=
  Paired (answerTenant connection) p p
    (fun _ v v' => Alike digest connection v v' ∧ Confined digest connection w v) w w'

theorem twinList (alike : Alike digest connection w w') :
    Twin digest connection (ScimDirectoryService.listKind connection kind) w w' := by
  unfold Twin ScimDirectoryService.listKind
  apply pairedAsk
  intro time
  simp only [answerTenant,answerScim]
  rw [← alikeAnswers alike]
  split
  · simp only [Option.getD_some,listedOwn,alike.agree.records]
    exact pairedPure ⟨alikeRead alike rfl rfl rfl rfl rfl rfl (alikeNext alike),confinedRead rfl rfl rfl⟩
  · exact pairedPure ⟨alikeRead alike rfl rfl rfl rfl rfl rfl (alikeNext alike),confinedRead rfl rfl rfl⟩

theorem twinNow (alike : Alike digest connection w w') : Twin digest connection ScimService.now w w' :=
  fun _ => ⟨_,_,_,_,rfl,rfl,alike,confinedSelf w⟩

theorem twinFind (alike : Alike digest connection w w') :
    Paired (answerTenant connection) (ScimDirectoryService.findUser connection id)
      (ScimDirectoryService.findUser connection id) (fun r v v' => Alike digest connection v v' ∧
        Confined digest connection w v ∧ ∀ found, r = .ok (some found) → found.accountId = id ∧
          (v.server.directory.held connection.uid found.kind id).isSome) w w' := by
  have gotten {v v' : ScimWorld} (alike : Alike digest connection v v') (kind : ScimKind) :
      (if v'.server.answers then v'.server.directory.resource kind id else none).filter
          (·.connectionUid = connection.uid) =
        (if v.server.answers then v.server.directory.resource kind id else none).filter
          (·.connectionUid = connection.uid) := by
    rw [← alikeAnswers alike]
    split
    · rw [gottenOwn,gottenOwn,agreeHeld alike.agree]
    · rfl
  have own {v : ScimWorld} {kind : ScimKind} {found : ScimResource}
      (got : (if v.server.answers then v.server.directory.resource kind id else none).filter
        (·.connectionUid = connection.uid) = some found) :
      found.accountId = id ∧ (v.server.directory.held connection.uid found.kind id).isSome := by
    split at got
    · obtain ⟨identity,held,rfl⟩ := ownResource.mp got
      exact ⟨rfl,by simp [held]⟩
    · cases got
  have next {v v' : ScimWorld} (alike : Alike digest connection v v') :
      Alike digest connection {v with server := v.server.next} {v' with server := v'.server.next} :=
    alikeRead alike rfl rfl rfl rfl rfl rfl (alikeNext alike)
  unfold ScimDirectoryService.findUser
  apply pairedAsk
  intro time
  simp only [answerTenant,answerScim]
  rw [gotten alike]
  cases subject : (if w.server.answers then w.server.directory.resource .subject id else none).filter
      (·.connectionUid = connection.uid) with
  | some found =>
      refine pairedPure ⟨next alike,confinedRead rfl rfl rfl,fun other same => ?_⟩
      cases Option.some.inj (Except.ok.inj same)
      exact own (v := w) subject
  | none =>
      apply pairedAsk
      intro time
      simp only [answerTenant,answerScim]
      rw [gotten (next alike)]
      refine pairedPure ⟨next (next alike),confinedRead rfl rfl rfl,fun found same => ?_⟩
      exact own (v := {w with server := w.server.next}) (Except.ok.inj same)

theorem twinOnChange {v v' : ScimWorld} (confined : Confined digest connection w v) (alike : Alike digest connection v v')
    (own : resource.kind = .subject → (v.server.directory.held connection.uid .subject resource.accountId).isSome) :
    Paired (answerTenant connection) (ScimDirectoryService.onChange resource) (ScimDirectoryService.onChange resource)
      (fun _ u u' => Alike digest connection u u' ∧ Confined digest connection w u) v v' := by
  unfold ScimDirectoryService.onChange
  apply pairedAsk
  intro time
  obtain ⟨same,after⟩ := projectAlike alike own
  have confined := confinedTrans confined (projectConfined resource v)
  cases projected : (v.project connection resource).1 with
  | true =>
      have projected' := same.symm.trans projected
      simp only [answerTenant,projected,projected',if_true]
      exact pairedPure ⟨after,confined⟩
  | false =>
      have projected' := same.symm.trans projected
      simp only [answerTenant,projected,projected',Bool.false_eq_true,if_false]
      exact pairedThrow ⟨after,confined⟩

theorem twinCreate (injective : Function.Injective digest) (plain : PlainUid connection.uid)
    (alike : Alike digest connection w w') (named : ∃ externalId, name = resourceName digest kind connection.uid externalId) :
    Twin digest connection (ScimDirectoryService.createProvisionedUser connection name kind identity) w w' := by
  unfold Twin ScimDirectoryService.createProvisionedUser
  apply pairedAsk
  intro time
  obtain ⟨same,after,confined,own⟩ := createTwin time identity injective plain alike named
  simp only [answerTenant]
  rw [← same]
  cases made : (w.create time kind name ⟨connection.uid,identity⟩).1 with
  | none => exact pairedPure ⟨after,confined⟩
  | some created =>
      obtain ⟨rfl,held⟩ := own created made
      apply pairedBind
      refine pairedMono (twinOnChange confined after fun subject => ?_) fun r u u' ends => ?_
      · cases subject
        simp [held]
      · cases r with
        | ok done => exact pairedPure ends
        | error failure => exact ends

theorem twinUpdate (plain : PlainUid connection.uid) (alike : Alike digest connection w w') :
    Twin digest connection (ScimDirectoryService.updateUserSpecs connection id identity) w w' := by
  unfold Twin ScimDirectoryService.updateUserSpecs
  apply pairedBind
  refine pairedMono (twinFind alike) fun r v v' ⟨alike,confined,own⟩ => ?_
  rcases r with failure | found
  · exact ⟨alike,confined⟩
  · cases found with
    | none => exact pairedThrow ⟨alike,confined⟩
    | some resource =>
        obtain ⟨-,held⟩ := own resource rfl
        dsimp only
        apply pairedAsk
        intro time
        obtain ⟨same,after,patched,own⟩ := patchTwin time identity plain alike held
        rw [← same]
        cases made : (answerTenant connection time (.patch resource.kind id identity) v).1 with
        | none => exact pairedThrow ⟨after,confinedTrans confined patched⟩
        | some updated =>
            obtain ⟨rfl,held⟩ := own updated made
            apply pairedBind
            refine pairedMono (twinOnChange (confinedTrans confined patched) after fun subject => ?_) fun r u u' ends => ?_
            · rw [← subject]
              simp [held]
            · cases r with
              | ok done => exact pairedPure ends
              | error failure => exact ends

theorem scopedTwin (injective : Function.Injective digest) (plain : PlainUid connection.uid) {p : Scim α}
    (inside : Scoped digest connection p) (alike : Alike digest connection w w') : Twin digest connection p w w' := by
  induction inside generalizing w w' with
  | pure a => exact pairedPure ⟨alike,confinedSelf w⟩
  | throw e => exact pairedThrow ⟨alike,confinedSelf w⟩
  | bind first rest firstHolds restHolds =>
      apply pairedBind
      refine pairedMono (firstHolds alike) fun r v v' ⟨alike,confined⟩ => ?_
      cases r with
      | ok a => exact pairedMono (restHolds a alike) fun _ _ _ ends => ⟨ends.1,confinedTrans confined ends.2⟩
      | error e => exact ⟨alike,confined⟩
  | now => exact twinNow alike
  | list kind => exact twinList alike
  | find id => exact pairedMono (twinFind alike) fun _ _ _ ends => ⟨ends.1,ends.2.1⟩
  | create kind externalId identity => exact twinCreate injective plain alike ⟨externalId,rfl⟩
  | update id identity => exact twinUpdate plain alike

end Programs
end Operations

section Sessions
variable {digest : String → String} {connection : ScimConnection} {w w' : ScimWorld}

theorem serveTwin (injective : Function.Injective digest) (plain : PlainUid connection.uid)
    (names : OwnNames digest w.server.directory) (names' : OwnNames digest w'.server.directory)
    (agree : Agree connection w w') (event : TenantEvent) :
    (w.serve digest connection event).1 = (w'.serve digest connection event).1 ∧
      Alike digest connection (w.serve digest connection event).2 (w'.serve digest connection event).2 ∧
      Confined digest connection w (w.serve digest connection event).2 := by
  have alike : Alike digest connection (w.expecting event.answered) (w'.expecting event.answered) :=
    ⟨⟨agree.records,agree.links,agree.accounts⟩,rfl,names,names'⟩
  obtain ⟨r,rest,v,v',left,right,after,confined⟩ :=
    scopedTwin injective plain event.command.respondScoped alike event.times
  have expected : Confined digest connection w (w.expecting event.answered) := confinedRead rfl rfl rfl
  unfold ScimWorld.serve
  rw [left,right]
  exact ⟨rfl,after,confinedTrans expected confined⟩

theorem reachedNames (injective : Function.Injective digest) (reached : ScimReached digest w) :
    OwnNames digest w.server.directory := by
  induction reached with
  | empty =>
      intro kind name record found
      cases found
  | @serve w connection plain event _ ih =>
      exact (serveTwin injective plain ih ih ⟨fun _ => rfl,fun _ _ => rfl,fun _ => rfl⟩ event).2.2.names ih
  | others links accounts _ ih => exact ih

theorem sessionTwin (injective : Function.Injective digest) (plain : PlainUid connection.uid)
    (events : List TenantEvent) (names : OwnNames digest w.server.directory) (names' : OwnNames digest w'.server.directory)
    (agree : Agree connection w w') :
    (w.session digest connection events).1 = (w'.session digest connection events).1 ∧
      Agree connection (w.session digest connection events).2 (w'.session digest connection events).2 ∧
      ∀ other : ScimConnection, other.uid ≠ connection.uid → Untouched other w (w.session digest connection events).2 := by
  induction events generalizing w w' with
  | nil => exact ⟨rfl,agree,fun other _ => untouchedSelf w⟩
  | cons event rest ih =>
      obtain ⟨same,alike,confined⟩ := serveTwin injective plain names names' agree event
      obtain ⟨responses,after,others⟩ := ih alike.names alike.names' alike.agree
      simp only [ScimWorld.session]
      refine ⟨by rw [same,responses],after,fun other apart => untouchedTrans (confined.others other apart) (others other apart)⟩

/- What a connection is answered, and what becomes of its own, does not depend on the other connections, and
nothing of theirs is changed. -/
theorem scimIsolation (digest : String → String) (injective : Function.Injective digest) (a b : ScimConnection)
    (plain : PlainUid a.uid) (apart : a.uid ≠ b.uid) (w w' : ScimWorld) (reached : ScimReached digest w)
    (reached' : ScimReached digest w') (events : List TenantEvent) :
    Untouched b w (w.session digest a events).2 ∧ (Agree a w w' →
      (w.session digest a events).1 = (w'.session digest a events).1 ∧
        Agree a (w.session digest a events).2 (w'.session digest a events).2) := by
  have names := reachedNames injective reached
  have names' := reachedNames injective reached'
  refine ⟨?_,fun agree => ?_⟩
  · exact (sessionTwin injective plain events names names ⟨fun _ => rfl,fun _ _ => rfl,fun _ => rfl⟩).2.2 b apart.symm
  · obtain ⟨responses,after,-⟩ := sessionTwin injective plain events names names' agree
    exact ⟨responses,after⟩

def acmeTenant : ScimConnection := ⟨"acme",⟨"codemowers","org-acme"⟩,.allUsers⟩

def globexTenant : ScimConnection := ⟨"globex",⟨"codemowers","org-globex"⟩,.allUsers⟩

def newcomer (userName : String) : TenantEvent := ⟨.postUser (.object [("userName",.string userName)]),[],[]⟩

theorem scimIsolationApplied :
    let w' := (emptyWorld.serve id globexTenant (newcomer "alice")).2
    Untouched globexTenant w' (w'.session id acmeTenant [newcomer "alice",newcomer "alice"]).2 ∧
      (w'.session id acmeTenant [newcomer "alice",newcomer "alice"]).1 =
        (emptyWorld.session id acmeTenant [newcomer "alice",newcomer "alice"]).1 := by
  have reached : ScimReached id (emptyWorld.serve id globexTenant (newcomer "alice")).2 :=
    .serve globexTenant (by unfold PlainUid; decide +kernel) _ .empty
  have plain : PlainUid acmeTenant.uid := by unfold PlainUid; decide +kernel
  have agree : Agree acmeTenant (emptyWorld.serve id globexTenant (newcomer "alice")).2 emptyWorld := by
    refine ⟨fun kind => ?_,fun name held => ?_,fun account => rfl⟩
    · cases kind
      · rfl
      · rfl
    · have none : ownRecords acmeTenant.uid (emptyWorld.serve id globexTenant (newcomer "alice")).2.server.directory
          .subject = [] := rfl
      rw [heldOwn,none] at held
      cases held
  have isolated := scimIsolation id Function.injective_id acmeTenant globexTenant plain (by decide) _ _ reached .empty
    [newcomer "alice",newcomer "alice"]
  exact ⟨isolated.1,(isolated.2 agree).1⟩

end Sessions
end Passmower
