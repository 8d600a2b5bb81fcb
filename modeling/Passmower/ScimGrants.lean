import Passmower.ScimLinking
import Passmower.Resumption.Triple
import Passmower.Resumption.Stepping

/-! Where the identities that connections give to accounts come from: what was projected had been provisioned by authenticated
requests, for a subject that a login of the account had linked by its verified claims. -/
namespace Passmower
open JavaScript Resumption Program

structure TokenShown (hashScimToken : String → String) (operations : List LinkOperation) (history : List LinkEvent) (n : Nat)
    (connectionId authorization : String) (command : ScimCommand) (connection : ScimConnectionObject) : Prop where
  asked : operations[n]? = some (.scim connectionId authorization command)
  found : .found n connection ∈ history
  enabled : connection.disabled = false
  authenticated : ScimConnectionService.authenticate hashScimToken connection (bearerToken authorization) = true

def Authorised (hashScimToken : String → String) (operations : List LinkOperation) (history : List LinkEvent) (n : Nat)
    (uid : String) : Prop :=
  ∃ connectionId authorization command connection,
    TokenShown hashScimToken operations history n connectionId authorization command connection ∧ connection.uid = uid

structure Matches (operations : List LinkOperation) (history : List LinkEvent) (n : Nat) (accountId : String) (record : ScimRecord)
    (providerKey externalId : String) (linkClaims : Object) (connections : List ScimConnectionObject)
    (connection : ScimConnectionObject) : Prop where
  asked : operations[n]? = some (.login providerKey accountId linkClaims)
  listed : .listed n connections ∈ history
  among : connection ∈ connections
  enabled : connection.disabled = false
  matched : ScimLinkService.matched providerKey linkClaims connection = some externalId
  owner : record.connectionUid = connection.uid
  identified : record.identity.externalId = some (.string externalId)

def Verified (operations : List LinkOperation) (history : List LinkEvent) (n : Nat) (accountId : String) (record : ScimRecord) :
    Prop :=
  ∃ providerKey externalId linkClaims connections connection,
    Matches operations history n accountId record providerKey externalId linkClaims connections connection

def LinkOperation.Revokes (uid : String) : LinkOperation → Prop
  | .reconcile connection => connection.disabled = true ∧ connection.uid = uid
  | .deleted connection => connection.uid = uid
  | .login _ _ _ | .scim _ _ _ | .approve _ => False

def ProjectsFrom (hashScimToken : String → String) (operations : List LinkOperation) (history : List LinkEvent) (n : Nat)
    (accountId : String) (record : ScimRecord) (values : ScimProjection) : Prop :=
  (values.active = record.identity.isActive ∧ values.groups = record.identity.groups ∧
    (Authorised hashScimToken operations history n record.connectionUid ∨
      ∃ shown, Verified operations history n accountId shown ∧ shown.connectionUid = record.connectionUid)) ∨
  (values.active = false ∧ values.groups = [] ∧
    ∃ operation, operations[n]? = some operation ∧ operation.Revokes record.connectionUid)

def LinkJustified (hashScimToken : String → String) (operations : List LinkOperation) (history : List LinkEvent) :
    LinkEvent → Prop
  | .configured _ _ | .returned _ => True
  | .found _ connection => ∃ id, .configured id connection ∈ history
  | .listed _ connections => ∀ connection ∈ connections, ∃ id, .configured id connection ∈ history
  | .stored n _ record => Authorised hashScimToken operations history n record.connectionUid
  | .linked n name accountId record => Verified operations history n accountId record ∧
      (∃ m, .stored m name record ∈ history) ∧ ∀ m other before, .linked m name other before ∉ history
  | .projected n accountId key values => ∃ m k name record current, .linked m name accountId record ∈ history ∧
      .stored k name current ∈ history ∧ current.connectionUid = record.connectionUid ∧
      key = "scim-" ++ current.connectionUid ∧ ProjectsFrom hashScimToken operations history n accountId current values
  | .resubmitted n accountId _ => operations[n]? = some (.approve accountId)

structure LinkGrows (s t : LinkWorld) : Prop where
  log : s.log ⊆ t.log
  operations : ∀ (n : Nat) (operation : LinkOperation), s.operations[n]? = some operation → t.operations[n]? = some operation
  owners : ∀ kind name record, s.directory.find kind name = some record →
    ∃ later, t.directory.find kind name = some later ∧ later.connectionUid = record.connectionUid
  versions : ∀ name, s.versions .subject name ≤ t.versions .subject name
  same : ∀ name, t.versions .subject name = s.versions .subject name →
    t.directory.find .subject name = s.directory.find .subject name ∧ t.links name = s.links name

section Growth
variable {s t u : LinkWorld} {n : Nat} {kind : ScimKind} {name accountId key : String} {record : ScimRecord}
  {values : ScimProjection} {identities : Identities} {event : LinkEvent} {hashScimToken : String → String}

theorem linkGrowsSelf (s : LinkWorld) : LinkGrows s s where
  log := List.Subset.refl _
  operations _ _ := id
  owners _ _ record stored := ⟨record,stored,rfl⟩
  versions _ := le_refl _
  same _ _ := ⟨rfl,rfl⟩

theorem linkGrowsTrans (first : LinkGrows s t) (second : LinkGrows t u) : LinkGrows s u where
  log := List.Subset.trans first.log second.log
  operations n operation asked := second.operations n operation (first.operations n operation asked)
  owners kind name record stored := by
    obtain ⟨later,there,own⟩ := first.owners kind name record stored
    obtain ⟨last,found,mine⟩ := second.owners kind name later there
    exact ⟨last,found,mine.trans own⟩
  versions name := (first.versions name).trans (second.versions name)
  same name unchanged := by
    have between : t.versions .subject name = s.versions .subject name :=
      Nat.le_antisymm (unchanged ▸ second.versions name) (first.versions name)
    obtain ⟨found,linked⟩ := first.same name between
    obtain ⟨found',linked'⟩ := second.same name (unchanged.trans between.symm)
    exact ⟨found'.trans found,linked'.trans linked⟩

theorem linkGrowsApart (log : s.log ⊆ t.log) (operations : t.operations = s.operations) (directory : t.directory = s.directory)
    (versions : t.versions = s.versions) (links : t.links = s.links) : LinkGrows s t where
  log := log
  operations n operation asked := operations ▸ asked
  owners kind name record stored := ⟨record,directory ▸ stored,rfl⟩
  versions name := le_of_eq (congrFun (congrFun versions.symm _) _)
  same name _ := ⟨by rw [directory],by rw [links]⟩

theorem notingGrows (s : LinkWorld) (event : LinkEvent) : LinkGrows s (s.noting event) :=
  linkGrowsApart (List.subset_cons_self _ _) rfl rfl rfl rfl

theorem projectingGrows : LinkGrows s (s.projecting n accountId key values identities) :=
  linkGrowsApart (List.subset_cons_self _ _) rfl rfl rfl rfl

theorem resubmittingGrows {specs : Identities} : LinkGrows s (s.resubmitting n accountId specs identities) :=
  linkGrowsApart (List.subset_cons_self _ _) rfl rfl rfl rfl

theorem bumpedLater (k : ScimKind) (other : String) : s.versions k other ≤ s.bumped kind name k other := by
  unfold LinkWorld.bumped
  split
  · exact Nat.le_succ _
  · exact le_refl _

theorem bumpedSame {k : ScimKind} {other : String} (same : s.bumped kind name k other = s.versions k other) :
    ¬ (k = kind ∧ other = name) := by
  intro here
  rw [LinkWorld.bumped,if_pos here] at same
  exact Nat.succ_ne_self _ same

theorem writtenVersions (k : ScimKind) (other : String) :
    s.versions k other ≤ (s.written n kind name record).versions k other := by
  unfold LinkWorld.written
  dsimp only
  split
  · exact le_refl _
  · exact bumpedLater k other

theorem writtenGrows (own : ∀ before, s.directory.find kind name = some before → record.connectionUid = before.connectionUid) :
    LinkGrows s (s.written n kind name record) where
  log := by
    unfold LinkWorld.written
    dsimp only
    split
    · exact List.subset_cons_self _ _
    · exact List.Subset.refl _
  operations _ _ := id
  owners k other before stored := by
    simp only [LinkWorld.written,findPut]
    split
    · rename_i here
      obtain ⟨rfl,rfl⟩ := here
      exact ⟨record,rfl,own before stored⟩
    · exact ⟨before,stored,rfl⟩
  versions := writtenVersions _
  same other unchanged := by
    refine ⟨?_,rfl⟩
    simp only [LinkWorld.written,findPut]
    split
    · rename_i here
      obtain ⟨rfl,rfl⟩ := here
      by_cases still : s.directory.find .subject name = some record
      · exact still.symm
      · simp only [LinkWorld.written,if_neg still] at unchanged
        exact absurd ⟨rfl,rfl⟩ (bumpedSame unchanged)
    · rfl

theorem createdGrows (fresh : s.directory.find kind name = none) : LinkGrows s (s.created n kind name record) := by
  have written : LinkGrows s (s.written n kind name record) := writtenGrows fun before stored => by
    rw [fresh] at stored
    cases stored
  refine ⟨written.log,written.operations,written.owners,written.versions,fun other unchanged => ?_⟩
  refine ⟨(written.same other unchanged).1,?_⟩
  simp only [LinkWorld.created]
  split
  · rename_i here
    obtain ⟨rfl,rfl⟩ := here
    simp only [LinkWorld.created,LinkWorld.written,fresh,reduceCtorEq,if_false] at unchanged
    exact absurd ⟨rfl,rfl⟩ (bumpedSame unchanged)
  · rfl

theorem linkingGrows : LinkGrows s (s.linking n name accountId record) where
  log := List.subset_cons_self _ _
  operations _ _ := id
  owners _ _ before stored := ⟨before,stored,rfl⟩
  versions := bumpedLater _
  same other unchanged := by
    refine ⟨rfl,?_⟩
    have apart : other ≠ name := fun same => bumpedSame unchanged ⟨rfl,same⟩
    simp only [LinkWorld.linking,if_neg apart]

theorem serveCases {β : Type} {P : Option β → LinkWorld → Prop} {after : Option LinkWorld} {answer : LinkWorld → Option β}
    (idle : P none s) (done : ∀ t, after = some t → P none t ∧ P (answer t) t) :
    P (s.serve after answer).1 (s.serve after answer).2 := by
  unfold LinkWorld.serve
  split
  · exact (done _ rfl).2
  · exact (done _ rfl).1
  · exact idle
  · exact idle

theorem readGiven {β : Type} {answer : Option β} {b : β} (given : s.read answer = some b) : answer = some b := by
  unfold LinkWorld.read at given
  split at given
  · exact given
  · cases given

theorem patchServed {D : ScimDeltas} {existing identity : ScimIdentity}
    (patched : ((s.directory.find kind name).bind fun record => (patchedIdentity D existing identity record.identity).map
      fun patched => s.written n kind name {record with identity := patched}) = some t) :
    ∃ before after, s.directory.find kind name = some before ∧ t = s.written n kind name {before with identity := after} := by
  obtain ⟨before,stored,rest⟩ := Option.bind_eq_some_iff.mp patched
  obtain ⟨after,_,same⟩ := Option.map_eq_some_iff.mp rest
  exact ⟨before,after,stored,same.symm⟩

theorem createServed
    (created : (if (s.directory.find kind name).isNone then some (s.created n kind name record) else none) = some t) :
    s.directory.find kind name = none ∧ t = s.created n kind name record := by
  split at created
  · rename_i fresh
    exact ⟨Option.isNone_iff_eq_none.mp fresh,(Option.some.inj created).symm⟩
  · cases created

theorem linkServed {resourceVersion : Nat}
    (linked : ((s.directory.find .subject name).bind fun record =>
      if s.versions .subject name = resourceVersion then some (s.linking n name accountId record) else none) = some t) :
    ∃ before, s.directory.find .subject name = some before ∧ s.versions .subject name = resourceVersion ∧
      t = s.linking n name accountId before := by
  obtain ⟨before,stored,rest⟩ := Option.bind_eq_some_iff.mp linked
  split at rest
  · rename_i current
    exact ⟨before,stored,current,(Option.some.inj rest).symm⟩
  · cases rest

theorem projectServed {D : ScimDeltas} {existing : Identities}
    (patched : ((s.users accountId).bind fun current => (patchedIdentities D existing key values current).map
      (s.projecting n accountId key values)) = some t) :
    ∃ current after, s.users accountId = some current ∧ patchedIdentities D existing key values current = some after ∧
      t = s.projecting n accountId key values after := by
  obtain ⟨current,there,rest⟩ := Option.bind_eq_some_iff.mp patched
  obtain ⟨after,done,same⟩ := Option.map_eq_some_iff.mp rest
  exact ⟨current,after,there,done,same.symm⟩

theorem resubmitServed {D : ScimDeltas} {existing specs : Identities}
    (patched : ((s.users accountId).bind fun current => (patchedSpecs D existing specs current).map
      (s.resubmitting n accountId specs)) = some t) :
    ∃ current after, s.users accountId = some current ∧ patchedSpecs D existing specs current = some after ∧
      t = s.resubmitting n accountId specs after := by
  obtain ⟨current,there,rest⟩ := Option.bind_eq_some_iff.mp patched
  obtain ⟨after,done,same⟩ := Option.map_eq_some_iff.mp rest
  exact ⟨current,after,there,done,same.symm⟩

theorem linkCallGrows (D : ScimDeltas) (n : Nat) (c : LinkCall) (s : LinkWorld) :
    LinkGrows s (answerLinks D n () c s).2 ∧ (answerLinks D n () c s).2.operations = s.operations := by
  have still : LinkGrows s s ∧ s.operations = s.operations := ⟨linkGrowsSelf s,rfl⟩
  cases c with
  | connection id =>
      simp only [answerLinks]
      split
      · exact ⟨notingGrows s _,rfl⟩
      · exact still
  | connections =>
      simp only [answerLinks]
      split
      · exact ⟨notingGrows s _,rfl⟩
      · exact still
  | list kind => exact still
  | get kind name => exact still
  | create kind name record =>
      refine serveCases (P := fun _ t => LinkGrows s t ∧ t.operations = s.operations) still fun t done => ?_
      obtain ⟨fresh,rfl⟩ := createServed done
      exact ⟨⟨createdGrows fresh,rfl⟩,createdGrows fresh,rfl⟩
  | patch kind name existing identity =>
      refine serveCases (P := fun _ t => LinkGrows s t ∧ t.operations = s.operations) still fun t done => ?_
      obtain ⟨before,after,stored,rfl⟩ := patchServed done
      have grows : LinkGrows s (s.written n kind name {before with identity := after}) := writtenGrows fun old there => by
        rw [Option.some.inj (there.symm.trans stored)]
      exact ⟨⟨grows,rfl⟩,grows,rfl⟩
  | linkSubject name resourceVersion accountId =>
      refine serveCases (P := fun _ t => LinkGrows s t ∧ t.operations = s.operations) still fun t done => ?_
      obtain ⟨before,_,_,rfl⟩ := linkServed done
      exact ⟨⟨linkingGrows,rfl⟩,linkingGrows,rfl⟩
  | findUser accountId => exact still
  | patchUser accountId existing key values =>
      refine serveCases (P := fun _ t => LinkGrows s t ∧ t.operations = s.operations) still fun t done => ?_
      obtain ⟨_,_,_,_,rfl⟩ := projectServed done
      exact ⟨⟨projectingGrows,rfl⟩,projectingGrows,rfl⟩
  | resubmit accountId existing specs =>
      refine serveCases (P := fun _ t => LinkGrows s t ∧ t.operations = s.operations) still fun t done => ?_
      obtain ⟨_,_,_,_,rfl⟩ := resubmitServed done
      exact ⟨⟨resubmittingGrows,rfl⟩,resubmittingGrows,rfl⟩
  | reconcileUserStatus accountId => exact still
  | now => exact still
  | returned => exact ⟨notingGrows s _,rfl⟩

end Growth

def ProjectedOn (history : List LinkEvent) (accountId uid : String) : Prop :=
  ∃ n values, .projected n accountId ("scim-" ++ uid) values ∈ history

structure LinkLedger (spare : Prop) (hashScimToken : String → String) (s : LinkWorld) : Prop where
  lawful : Lawful (LinkJustified hashScimToken s.operations) s.log
  connections : ∀ entry ∈ s.connections, .configured entry.1 entry.2 ∈ s.log
  stored : ∀ name record, s.directory.find .subject name = some record → ∃ n, .stored n name record ∈ s.log
  owners : ∀ n name record, .stored n name record ∈ s.log →
    ∃ current, s.directory.find .subject name = some current ∧ current.connectionUid = record.connectionUid
  linked : ∀ name accountId, s.links name = some accountId ↔ ∃ n record, .linked n name accountId record ∈ s.log
  entries : spare → ∀ accountId uid, (s.entry accountId ("scim-" ++ uid)).isSome → ProjectedOn s.log accountId uid

section Accounts
variable {spare : Prop} {hashScimToken : String → String} {s : LinkWorld} {n : Nat} {kind : ScimKind} {name accountId uid : String}
  {record : ScimRecord} {values : ScimProjection} {event : LinkEvent} {operations : List LinkOperation}
  {history : List LinkEvent}

theorem verifiedFurther (verified : Verified operations history n accountId record) (operation : LinkOperation) :
    Verified (operations ++ [operation]) history n accountId record := by
  obtain ⟨providerKey,externalId,linkClaims,connections,connection,fits⟩ := verified
  have within := (List.getElem?_eq_some_iff.mp fits.asked).1
  exact ⟨providerKey,externalId,linkClaims,connections,connection,(List.getElem?_append_left within).trans fits.asked,fits.listed,
    fits.among,fits.enabled,fits.matched,fits.owner,fits.identified⟩

theorem authorisedFurther (authorised : Authorised hashScimToken operations history n uid) (operation : LinkOperation) :
    Authorised hashScimToken (operations ++ [operation]) history n uid := by
  obtain ⟨connectionId,authorization,command,connection,shown,own⟩ := authorised
  have within := (List.getElem?_eq_some_iff.mp shown.asked).1
  exact ⟨connectionId,authorization,command,connection,
    ⟨(List.getElem?_append_left within).trans shown.asked,shown.found,shown.enabled,shown.authenticated⟩,own⟩

theorem projectsFurther (projects : ProjectsFrom hashScimToken operations history n accountId record values)
    (operation : LinkOperation) : ProjectsFrom hashScimToken (operations ++ [operation]) history n accountId record values := by
  rcases projects with ⟨active,groups,authorised | ⟨shown,verified,own⟩⟩ | ⟨active,groups,other,asked,revokes⟩
  · exact .inl ⟨active,groups,.inl (authorisedFurther authorised operation)⟩
  · exact .inl ⟨active,groups,.inr ⟨shown,verifiedFurther verified operation,own⟩⟩
  · have within := (List.getElem?_eq_some_iff.mp asked).1
    exact .inr ⟨active,groups,other,(List.getElem?_append_left within).trans asked,revokes⟩

theorem justifiedFurther (operation : LinkOperation) (justified : LinkJustified hashScimToken operations history event) :
    LinkJustified hashScimToken (operations ++ [operation]) history event := by
  cases event with
  | configured id connection => trivial
  | found n connection => exact justified
  | listed n connections => exact justified
  | stored n name record => exact authorisedFurther justified operation
  | linked n name accountId record => exact ⟨verifiedFurther justified.1 operation,justified.2⟩
  | projected n accountId key values =>
      obtain ⟨m,k,name,record,current,linked,stored,own,same,projects⟩ := justified
      exact ⟨m,k,name,record,current,linked,stored,own,same,projectsFurther projects operation⟩
  | resubmitted n accountId specs =>
      exact (List.getElem?_append_left (List.getElem?_eq_some_iff.mp justified).1).trans justified
  | returned n => trivial

theorem begunLedger (ledger : LinkLedger spare hashScimToken s) (operation : LinkOperation) :
    LinkLedger spare hashScimToken {s with operations := s.operations ++ [operation]} where
  lawful := lawfulMono ledger.lawful fun _ _ => justifiedFurther operation
  connections := ledger.connections
  stored := ledger.stored
  owners := ledger.owners
  linked := ledger.linked
  entries := ledger.entries

theorem projectedOnLater (event : LinkEvent) (projected : ProjectedOn history accountId uid) :
    ProjectedOn (event :: history) accountId uid := by
  obtain ⟨n,values,inside⟩ := projected
  exact ⟨n,values,List.mem_cons_of_mem _ inside⟩

theorem notedLedger (ledger : LinkLedger spare hashScimToken s) (justified : LinkJustified hashScimToken s.operations s.log event)
    (apart : (∀ n name record, event ≠ .stored n name record) ∧ ∀ n name accountId record, event ≠ .linked n name accountId record) :
    LinkLedger spare hashScimToken (s.noting event) where
  lawful := ⟨justified,ledger.lawful⟩
  connections entry inside := List.mem_cons_of_mem _ (ledger.connections entry inside)
  stored name record there := by
    obtain ⟨n,stored⟩ := ledger.stored name record there
    exact ⟨n,List.mem_cons_of_mem _ stored⟩
  owners n name record stored := by
    rcases List.mem_cons.mp stored with same | before
    · exact absurd same.symm (apart.1 n name record)
    · exact ledger.owners n name record before
  linked name accountId := by
    refine (ledger.linked name accountId).trans ⟨fun ⟨n,record,before⟩ => ⟨n,record,List.mem_cons_of_mem _ before⟩,?_⟩
    rintro ⟨n,record,inside⟩
    rcases List.mem_cons.mp inside with same | before
    · exact absurd same.symm (apart.2 n name accountId record)
    · exact ⟨n,record,before⟩
  entries spares accountId uid held := projectedOnLater event (ledger.entries spares accountId uid held)

theorem linkedStored (ledger : LinkLedger spare hashScimToken s) (linked : .linked n name accountId record ∈ s.log) :
    ∃ current, s.directory.find .subject name = some current ∧ current.connectionUid = record.connectionUid := by
  obtain ⟨later,earlier,parted,_,⟨m,stored⟩,_⟩ := lawfulMember ledger.lawful linked
  apply ledger.owners m name record
  rw [parted]
  exact List.mem_append_right _ (List.mem_cons_of_mem _ stored)

theorem writtenLedger (ledger : LinkLedger spare hashScimToken s)
    (authorised : Authorised hashScimToken s.operations s.log n record.connectionUid)
    (own : ∀ before, s.directory.find kind name = some before → record.connectionUid = before.connectionUid) :
    LinkLedger spare hashScimToken (s.written n kind name record) := by
  cases kind with
  | group =>
      have still : ∀ other, (s.written n .group name record).directory.find .subject other = s.directory.find .subject other := by
        intro other
        simp [LinkWorld.written]
      exact {
        lawful := ledger.lawful
        connections := ledger.connections
        stored := fun other found there => ledger.stored other found (still other ▸ there)
        owners := fun m other found stored => (still other).symm ▸ ledger.owners m other found stored
        linked := ledger.linked
        entries := ledger.entries}
  | subject =>
      have found : ∀ other, (s.written n .subject name record).directory.find .subject other =
          if name = other then some record else s.directory.find .subject other := by
        intro other
        simp [LinkWorld.written]
      exact {
        lawful := ⟨authorised,ledger.lawful⟩
        connections := fun entry inside => List.mem_cons_of_mem _ (ledger.connections entry inside)
        stored := fun other held there => by
          rw [found] at there
          split at there
          · rename_i same
            subst same
            cases Option.some.inj there
            exact ⟨n,List.mem_cons_self ..⟩
          · obtain ⟨m,stored⟩ := ledger.stored other held there
            exact ⟨m,List.mem_cons_of_mem _ stored⟩
        owners := fun m other held stored => by
          rw [found]
          rcases List.mem_cons.mp stored with same | before
          · cases same
            exact ⟨record,if_pos rfl,rfl⟩
          · obtain ⟨current,there,mine⟩ := ledger.owners m other held before
            split
            · rename_i same
              subst same
              exact ⟨record,rfl,(own current there).trans mine⟩
            · exact ⟨current,there,mine⟩
        linked := fun other accountId => by
          refine (ledger.linked other accountId).trans ⟨fun ⟨m,held,before⟩ => ⟨m,held,List.mem_cons_of_mem _ before⟩,?_⟩
          rintro ⟨m,held,inside⟩
          rcases List.mem_cons.mp inside with same | before
          · cases same
          · exact ⟨m,held,before⟩
        entries := fun spares accountId uid held => projectedOnLater _ (ledger.entries spares accountId uid held)}

theorem createdLedger (ledger : LinkLedger spare hashScimToken s)
    (authorised : Authorised hashScimToken s.operations s.log n record.connectionUid)
    (fresh : s.directory.find kind name = none) : LinkLedger spare hashScimToken (s.created n kind name record) := by
  have written : LinkLedger spare hashScimToken (s.written n kind name record) := writtenLedger ledger authorised fun before there => by
    rw [fresh] at there
    cases there
  refine ⟨written.lawful,written.connections,written.stored,written.owners,fun other accountId => ?_,written.entries⟩
  refine Iff.trans ?_ (written.linked other accountId)
  simp only [LinkWorld.created]
  split
  · rename_i here
    obtain ⟨rfl,rfl⟩ := here
    -- a subject that is not there has never been linked
    refine ⟨nofun,fun linked => ?_⟩
    obtain ⟨m,held,before⟩ := (ledger.linked other accountId).mp linked
    obtain ⟨current,there,_⟩ := linkedStored ledger before
    rw [fresh] at there
    cases there
  · exact Iff.rfl

theorem linkingLedger (ledger : LinkLedger spare hashScimToken s) (verified : Verified s.operations s.log n accountId record)
    (stored : s.directory.find .subject name = some record) (unlinked : s.links name = none) :
    LinkLedger spare hashScimToken (s.linking n name accountId record) where
  lawful := by
    refine ⟨⟨verified,ledger.stored name record stored,fun m other before linked => ?_⟩,ledger.lawful⟩
    rw [(ledger.linked name other).mpr ⟨m,before,linked⟩] at unlinked
    cases unlinked
  connections entry inside := List.mem_cons_of_mem _ (ledger.connections entry inside)
  stored other held there := by
    obtain ⟨m,before⟩ := ledger.stored other held there
    exact ⟨m,List.mem_cons_of_mem _ before⟩
  owners m other held inside := by
    rcases List.mem_cons.mp inside with same | before
    · cases same
    · exact ledger.owners m other held before
  linked other account := by
    simp only [LinkWorld.linking]
    by_cases same : other = name
    · subst same
      rw [if_pos rfl]
      constructor
      · intro linked
        cases Option.some.inj linked
        exact ⟨n,record,List.mem_cons_self ..⟩
      · rintro ⟨m,held,inside⟩
        rcases List.mem_cons.mp inside with here | before
        · cases here
          rfl
        · rw [(ledger.linked other account).mpr ⟨m,held,before⟩] at unlinked
          cases unlinked
    · rw [if_neg same,ledger.linked]
      refine ⟨fun ⟨m,held,before⟩ => ⟨m,held,List.mem_cons_of_mem _ before⟩,?_⟩
      rintro ⟨m,held,inside⟩
      rcases List.mem_cons.mp inside with here | before
      · cases here
        exact absurd rfl same
      · exact ⟨m,held,before⟩
  entries spares account uid held := projectedOnLater _ (ledger.entries spares account uid held)

theorem patchedOther {D : ScimDeltas} {existing current after : Identities} {key other : String}
    (patched : patchedIdentities D existing key values current = some after) (apart : other ≠ key) :
    after.bind (mapGet other) = current.bind (mapGet other) ∨ after.bind (mapGet other) = none := by
  have elsewhere : ∀ (value : ScimProjection) (present : List (String × ScimProjection)),
      mapGet other (mapSet key value present) = mapGet other present := by
    intro value present
    rw [mapGetSet,if_neg (Ne.symm apart)]
  unfold patchedIdentities at patched
  split at patched
  · cases Option.some.inj patched
    exact .inr (by simp [mapGet,Ne.symm apart])
  · split at patched
    · obtain ⟨present,rfl,same⟩ := Option.map_eq_some_iff.mp patched
      subst same
      exact .inl (elsewhere values present)
    · split at patched
      · cases Option.some.inj patched
        exact .inl rfl
      · simp only [Option.bind_eq_bind,Option.bind_eq_some_iff] at patched
        obtain ⟨present,rfl,entry,_,changed,_,same⟩ := patched
        cases Option.some.inj same
        exact .inl (elsewhere changed present)

theorem projectingLedger {D : ScimDeltas} {existing current after : Identities} {key : String} (ledger : LinkLedger spare hashScimToken s)
    (justified : LinkJustified hashScimToken s.operations s.log (.projected n accountId key values))
    (there : s.users accountId = some current) (patched : patchedIdentities D existing key values current = some after) :
    LinkLedger spare hashScimToken (s.projecting n accountId key values after) where
  lawful := ⟨justified,ledger.lawful⟩
  connections entry inside := List.mem_cons_of_mem _ (ledger.connections entry inside)
  stored other held there := by
    obtain ⟨m,before⟩ := ledger.stored other held there
    exact ⟨m,List.mem_cons_of_mem _ before⟩
  owners m other held inside := by
    rcases List.mem_cons.mp inside with same | before
    · cases same
    · exact ledger.owners m other held before
  linked other account := by
    refine (ledger.linked other account).trans ⟨fun ⟨m,held,before⟩ => ⟨m,held,List.mem_cons_of_mem _ before⟩,?_⟩
    rintro ⟨m,held,inside⟩
    rcases List.mem_cons.mp inside with same | before
    · cases same
    · exact ⟨m,held,before⟩
  entries spares account uid held := by
    have earlier (held : (s.entry account ("scim-" ++ uid)).isSome) :
        ProjectedOn (s.projecting n accountId key values after).log account uid :=
      projectedOnLater _ (ledger.entries spares account uid held)
    by_cases own : account = accountId
    · subst own
      by_cases here : "scim-" ++ uid = key
      · subst here
        exact ⟨n,values,List.mem_cons_self ..⟩
      · apply earlier
        simp only [LinkWorld.entry,LinkWorld.projecting,if_true,Option.bind_some] at held
        rw [LinkWorld.entry,there,Option.bind_some]
        rcases patchedOther patched here with same | gone
        · rw [← same]
          exact held
        · rw [gone] at held
          cases held
    · apply earlier
      simp only [LinkWorld.entry,LinkWorld.projecting,if_neg own] at held
      exact held

theorem patchedSpecsKeeps {D : ScimDeltas} {existing specs current after : Identities} (P : Identities → Prop) (here : P current)
    (whole : P specs)
    (kept : ∀ key body before later, specs.bind (mapGet key) = some body → P before →
      patchedIdentities D existing key (mergedIdentity (existing.bind (mapGet key)) body) before = some later → P later)
    (patched : patchedSpecs D existing specs current = some after) : P after := by
  unfold patchedSpecs at patched
  split at patched
  · exact Option.some.inj patched ▸ here
  · exact Option.some.inj patched ▸ whole
  · rename_i submitted entries
    generalize submitted.map Prod.fst = keys at patched
    induction keys generalizing current with
    | nil => exact Option.some.inj patched ▸ here
    | cons key rest ih =>
        obtain ⟨middle,done,patched⟩ := Option.bind_eq_some_iff.mp patched
        refine ih ?_ patched
        dsimp only at done
        split at done
        · exact Option.some.inj done ▸ here
        · rename_i body found
          exact kept key body current middle found here done

theorem patchedSpecsFrom {D : ScimDeltas} {existing specs current after : Identities} {key : String}
    (patched : patchedSpecs D existing specs current = some after) (held : (after.bind (mapGet key)).isSome) :
    (current.bind (mapGet key)).isSome ∨ (specs.bind (mapGet key)).isSome := by
  revert held
  refine patchedSpecsKeeps (fun after => (after.bind (mapGet key)).isSome →
    (current.bind (mapGet key)).isSome ∨ (specs.bind (mapGet key)).isSome) .inl .inr ?_ patched
  intro other body before later submitted earlier done held
  by_cases same : key = other
  · subst same
    exact .inr (by rw [submitted]; rfl)
  · rcases patchedOther done same with equal | gone
    · exact earlier (equal ▸ held)
    · rw [gone] at held
      cases held

theorem resubmittingLedger {D : ScimDeltas} {existing specs current after : Identities} (ledger : LinkLedger spare hashScimToken s)
    (asked : s.operations[n]? = some (.approve accountId))
    (known : spare → ∀ uid, (specs.bind (mapGet ("scim-" ++ uid))).isSome → ProjectedOn s.log accountId uid)
    (there : s.users accountId = some current) (patched : patchedSpecs D existing specs current = some after) :
    LinkLedger spare hashScimToken (s.resubmitting n accountId specs after) where
  lawful := ⟨asked,ledger.lawful⟩
  connections entry inside := List.mem_cons_of_mem _ (ledger.connections entry inside)
  stored other held there := by
    obtain ⟨m,before⟩ := ledger.stored other held there
    exact ⟨m,List.mem_cons_of_mem _ before⟩
  owners m other held inside := by
    rcases List.mem_cons.mp inside with same | before
    · cases same
    · exact ledger.owners m other held before
  linked other account := by
    refine (ledger.linked other account).trans ⟨fun ⟨m,held,before⟩ => ⟨m,held,List.mem_cons_of_mem _ before⟩,?_⟩
    rintro ⟨m,held,inside⟩
    rcases List.mem_cons.mp inside with same | before
    · cases same
    · exact ⟨m,held,before⟩
  entries spares account uid held := by
    apply projectedOnLater
    by_cases own : account = accountId
    · subst own
      simp only [LinkWorld.entry,LinkWorld.resubmitting,if_true,Option.bind_some] at held
      rcases patchedSpecsFrom patched held with before | submitted
      · exact ledger.entries spares account uid (by rw [LinkWorld.entry,there]; exact before)
      · exact known spares uid submitted
    · simp only [LinkWorld.entry,LinkWorld.resubmitting,if_neg own] at held
      exact ledger.entries spares account uid held

def Projectable (hashScimToken : String → String) (n : Nat) (accountId key : String) (values : ScimProjection) (s : LinkWorld) :
    Prop :=
  ∃ m k name record current, .linked m name accountId record ∈ s.log ∧ .stored k name current ∈ s.log ∧
    key = "scim-" ++ current.connectionUid ∧ ProjectsFrom hashScimToken s.operations s.log n accountId current values

def LinkKnows (spare : Prop) (hashScimToken : String → String) (n : Nat) (s : LinkWorld) : LinkCall → Prop
  | .create _ _ record => Authorised hashScimToken s.operations s.log n record.connectionUid
  | .patch kind name _ _ => ∃ record, s.directory.find kind name = some record ∧
      Authorised hashScimToken s.operations s.log n record.connectionUid
  | .linkSubject name resourceVersion accountId => s.versions .subject name = resourceVersion →
      ∃ record, s.directory.find .subject name = some record ∧ s.links name = none ∧
        Verified s.operations s.log n accountId record
  | .patchUser accountId _ key values => Projectable hashScimToken n accountId key values s
  | .resubmit accountId _ specs => s.operations[n]? = some (.approve accountId) ∧
      (spare → ∀ uid, (specs.bind (mapGet ("scim-" ++ uid))).isSome → ProjectedOn s.log accountId uid)
  | _ => True

theorem ledgerCall (D : ScimDeltas) {c : LinkCall} (ledger : LinkLedger spare hashScimToken s)
    (knows : LinkKnows spare hashScimToken n s c) :
    LinkLedger spare hashScimToken (answerLinks D n () c s).2 := by
  cases c with
  | connection id =>
      simp only [answerLinks]
      split
      · rename_i connection given
        refine notedLedger ledger ⟨id,?_⟩ ⟨fun _ _ _ same => (by cases same),fun _ _ _ _ same => (by cases same)⟩
        exact ledger.connections _ (mapGetMember (readGiven given))
      · exact ledger
  | connections =>
      simp only [answerLinks]
      split
      · rename_i connections given
        cases Option.some.inj (readGiven given)
        refine notedLedger ledger (fun connection inside => ?_)
          ⟨fun _ _ _ same => (by cases same),fun _ _ _ _ same => (by cases same)⟩
        obtain ⟨entry,among,rfl⟩ := List.mem_map.mp inside
        exact ⟨entry.1,ledger.connections entry among⟩
      · exact ledger
  | list kind => exact ledger
  | get kind name => exact ledger
  | create kind name record =>
      refine serveCases (P := fun _ t => LinkLedger spare hashScimToken t) ledger fun t done => ?_
      obtain ⟨fresh,rfl⟩ := createServed done
      have kept := createdLedger ledger knows fresh
      exact ⟨kept,kept⟩
  | patch kind name existing identity =>
      refine serveCases (P := fun _ t => LinkLedger spare hashScimToken t) ledger fun t done => ?_
      obtain ⟨before,after,stored,rfl⟩ := patchServed done
      obtain ⟨record,there,authorised⟩ := knows
      cases Option.some.inj (there.symm.trans stored)
      have kept : LinkLedger spare hashScimToken (s.written n kind name {before with identity := after}) :=
        writtenLedger ledger authorised fun old found => by rw [Option.some.inj (found.symm.trans stored)]
      exact ⟨kept,kept⟩
  | linkSubject name resourceVersion accountId =>
      refine serveCases (P := fun _ t => LinkLedger spare hashScimToken t) ledger fun t done => ?_
      obtain ⟨before,stored,current,rfl⟩ := linkServed done
      obtain ⟨record,there,unlinked,verified⟩ := knows current
      cases Option.some.inj (there.symm.trans stored)
      have kept := linkingLedger ledger verified stored unlinked
      exact ⟨kept,kept⟩
  | findUser accountId => exact ledger
  | patchUser accountId existing key values =>
      refine serveCases (P := fun _ t => LinkLedger spare hashScimToken t) ledger fun t done => ?_
      obtain ⟨current,after,there,patched,rfl⟩ := projectServed done
      obtain ⟨m,k,name,record,held,linked,stored,own,projects⟩ := knows
      -- both records of the subject are in the hands of the connection that has it now
      obtain ⟨now,found,mine⟩ := linkedStored ledger linked
      obtain ⟨same,here,its⟩ := ledger.owners k name held stored
      have owner : held.connectionUid = record.connectionUid := by
        rw [← its,← mine,Option.some.inj (found.symm.trans here)]
      have kept := projectingLedger (n := n) ledger ⟨m,k,name,record,held,linked,stored,owner,own,projects⟩ there patched
      exact ⟨kept,kept⟩
  | resubmit accountId existing specs =>
      refine serveCases (P := fun _ t => LinkLedger spare hashScimToken t) ledger fun t done => ?_
      obtain ⟨current,after,there,patched,rfl⟩ := resubmitServed done
      have kept := resubmittingLedger (n := n) ledger knows.1 knows.2 there patched
      exact ⟨kept,kept⟩
  | reconcileUserStatus accountId => exact ledger
  | now => exact ledger
  | returned => exact notedLedger ledger trivial ⟨fun _ _ _ same => (by cases same),fun _ _ _ _ same => (by cases same)⟩

end Accounts

def LinkGrowing (F : LinkWorld → Prop) : Prop := ∀ s t, LinkGrows s t → F s → F t

structure Shown (r : LinkedResource) (s : LinkWorld) : Prop where
  owner : ∃ record, s.directory.find r.kind r.accountId = some record ∧ record.connectionUid = r.connectionUid
  stored : r.kind = .subject → ∃ m, .stored m r.accountId ⟨r.connectionUid,r.identity⟩ ∈ s.log
  linked : ∀ accountId, r.linkedAccountId = some accountId → r.kind = .subject ∧
    ∃ m record, .linked m r.accountId accountId record ∈ s.log
  version : r.resourceVersion ≤ s.versions r.kind r.accountId
  same : r.kind = .subject → s.versions .subject r.accountId = r.resourceVersion →
    s.directory.find .subject r.accountId = some ⟨r.connectionUid,r.identity⟩ ∧ s.links r.accountId = r.linkedAccountId

section Knowledge
variable {spare : Prop} {hashScimToken : String → String} {s : LinkWorld} {n : Nat} {kind : ScimKind} {name accountId uid key : String}
  {record : ScimRecord} {r : LinkedResource} {F G : LinkWorld → Prop}

theorem LinkGrowing.and (first : LinkGrowing F) (second : LinkGrowing G) : LinkGrowing fun s => F s ∧ G s :=
  fun s t grows holds => ⟨first s t grows holds.1,second s t grows holds.2⟩

theorem growingConstant (P : Prop) : LinkGrowing fun _ => P := fun _ _ _ => id

theorem growingOperation (n : Nat) (operation : LinkOperation) : LinkGrowing fun s => s.operations[n]? = some operation :=
  fun _ _ grows asked => grows.operations n operation asked

theorem growingEvent (event : LinkEvent) : LinkGrowing fun s => event ∈ s.log := fun _ _ grows inside => grows.log inside

theorem growingShown (subject : r.kind = .subject) : LinkGrowing (Shown r) := by
  intro s t grows shown
  have at_subject : ∀ {kind : ScimKind}, kind = .subject → s.versions kind r.accountId ≤ t.versions kind r.accountId := by
    rintro _ rfl
    exact grows.versions _
  refine ⟨?_,fun subject => ?_,fun accountId linked => ?_,shown.version.trans (at_subject subject),fun subject now => ?_⟩
  · obtain ⟨record,there,own⟩ := shown.owner
    obtain ⟨later,found,mine⟩ := grows.owners _ _ _ there
    exact ⟨later,found,mine.trans own⟩
  · obtain ⟨m,stored⟩ := shown.stored subject
    exact ⟨m,grows.log stored⟩
  · obtain ⟨subject,m,record,event⟩ := shown.linked accountId linked
    exact ⟨subject,m,record,grows.log event⟩
  · have version : r.resourceVersion ≤ s.versions .subject r.accountId := subject ▸ shown.version
    have before : s.versions .subject r.accountId = r.resourceVersion :=
      Nat.le_antisymm (now ▸ grows.versions r.accountId) version
    obtain ⟨found,links⟩ := grows.same r.accountId (now.trans before.symm)
    obtain ⟨stored,linked⟩ := shown.same subject before
    exact ⟨found.trans stored,links.trans linked⟩

theorem resourceShown (ledger : LinkLedger spare hashScimToken s) (given : s.resource kind name = some r) :
    r.kind = kind ∧ r.accountId = name ∧ Shown r s := by
  unfold LinkWorld.resource ScimDirectory.resource at given
  rw [Option.map_map] at given
  obtain ⟨record,there,same⟩ := Option.map_eq_some_iff.mp given
  subst same
  refine ⟨rfl,rfl,⟨record,there,rfl⟩,fun subject => ?_,fun accountId linked => ?_,le_refl _,fun subject _ => ?_⟩
  · cases subject
    exact ledger.stored name record there
  · simp only [Function.comp_apply] at linked ⊢
    split at linked
    · rename_i subject
      exact ⟨subject,(ledger.linked name accountId).mp linked⟩
    · cases linked
  · cases subject
    exact ⟨there,by simp [ScimDirectory.mapped]⟩

theorem listedResources (inside : r ∈ s.resources kind) : s.resource kind r.accountId = some r := by
  obtain ⟨resource,listed,rfl⟩ := List.mem_map.mp inside
  obtain ⟨entry,stored,rfl⟩ := List.mem_map.mp listed
  have there : s.directory.find kind entry.1 = some entry.2 := mapGetOf (s.directory.unique kind) stored
  simp [LinkWorld.resource,ScimDirectory.resource,ScimDirectory.mapped,there]

theorem shownProjectable {body : ScimProjection} (shown : Shown r s) (linked : r.linkedAccountId = some accountId)
    (own : r.connectionUid = uid)
    (projects : ProjectsFrom hashScimToken s.operations s.log n accountId ⟨r.connectionUid,r.identity⟩ body) :
    Projectable hashScimToken n accountId ("scim-" ++ uid) body s := by
  obtain ⟨subject,m,record,event⟩ := shown.linked accountId linked
  obtain ⟨k,stored⟩ := shown.stored subject
  exact ⟨m,k,_,record,_,event,stored,by rw [own],projects⟩

end Knowledge

def ledgerContract (spare : Prop) (hashScimToken : String → String) : Contract linkCalls LinkWorld where
  ok s _ := LinkLedger spare hashScimToken s
  rely := LinkGrows
  guarantee s t := LinkGrows s t ∧ t.operations = s.operations ∧ (LinkLedger spare hashScimToken s → LinkLedger spare hashScimToken t)

section Operations
variable {D : ScimDeltas} {spare : Prop} {hashScimToken digest : String → String} {n : Nat} {F : LinkWorld → Prop} {α β : Type}
  {accountId key uid : String} {connection : ScimConnection}

abbrev Grants (D : ScimDeltas) (spare : Prop) (hashScimToken : String → String) (n : Nat) (F : LinkWorld → Prop) (p : LinkProgram α)
    (Q : Except ScimFailure α → LinkWorld → Prop) : Prop :=
  Triple (answerLinks D n) (ledgerContract spare hashScimToken) F p Q

variable {Q : Except ScimFailure α → LinkWorld → Prop} {R : Except ScimFailure β → LinkWorld → Prop}

theorem growingStable (growing : LinkGrowing F) : Stable (ledgerContract spare hashScimToken) F := fun s t => growing s t

theorem grantsPure {a : α} (growing : LinkGrowing F) (ends : ∀ s, F s → Q (.ok a) s) :
    Grants D spare hashScimToken n F (.pure a) Q := triplePure (growingStable growing) ends

theorem grantsThrow {e : ScimFailure} (growing : LinkGrowing F) (ends : ∀ s, F s → Q (.error e) s) :
    Grants D spare hashScimToken n F (.throw e : LinkProgram α) Q := tripleThrow (growingStable growing) ends

theorem grantsAsk {c : LinkCall} {f : LinkAnswer c → LinkProgram α} (told : LinkAnswer c → LinkWorld → Prop)
    (growing : LinkGrowing F) (knows : ∀ s, F s → LinkKnows spare hashScimToken n s c)
    (tells : ∀ s, LinkLedger spare hashScimToken s → F (answerLinks D n () c s).2 → LinkLedger spare hashScimToken (answerLinks D n () c s).2 →
      told (answerLinks D n () c s).1 (answerLinks D n () c s).2)
    (next : ∀ a, Grants D spare hashScimToken n (fun s => F s ∧ told a s) (f a) Q) :
    Grants D spare hashScimToken n F (ask (I := linkCalls) c >>= f) Q := by
  refine tripleAsk (fun a s => F s ∧ told a s) (growingStable growing) (fun s w holds ledger => ?_) next
  obtain ⟨grows,operations⟩ := linkCallGrows D n c s
  have kept := ledgerCall D ledger (knows s holds)
  have after := growing _ _ grows holds
  exact ⟨⟨grows,operations,fun _ => kept⟩,after,tells s ledger after kept⟩

theorem grantsCall {c : LinkCall} {f : LinkAnswer c → LinkProgram α} (growing : LinkGrowing F)
    (knows : ∀ s, F s → LinkKnows spare hashScimToken n s c) (next : ∀ a, Grants D spare hashScimToken n F (f a) Q) :
    Grants D spare hashScimToken n F (ask (I := linkCalls) c >>= f) Q :=
  grantsAsk (fun _ _ => True) growing knows (fun _ _ _ _ => trivial) fun a =>
    tripleMono (next a) (fun _ holds => holds.1) fun _ _ => id

theorem grantsBind {p : LinkProgram α} {f : α → LinkProgram β} (growing : LinkGrowing F)
    (first : Grants D spare hashScimToken n F p Q) (next : ∀ a, Grants D spare hashScimToken n (fun s => F s ∧ Q (.ok a) s) (f a) R)
    (failed : ∀ e s, R (.error e) s) : Grants D spare hashScimToken n F (p >>= f) R := by
  refine tripleBind linkGrowsSelf (fun a s => F s ∧ Q (.ok a) s) (fun s holds => ?_) next
  have own : ∀ {a b}, (ledgerContract spare hashScimToken).guarantee a b → LinkGrows a b := fun kept => kept.1
  have since := soundSince (R := LinkGrows) linkGrowsTrans id own (first s holds)
  refine soundMono since fun r t ends => ?_
  cases r with
  | ok a => exact ⟨growing s t ends.2 holds,ends.1⟩
  | error e => exact failed e t

theorem grantsThen {p : LinkProgram α} {f : α → LinkProgram β} (growing : LinkGrowing F)
    (first : Grants D spare hashScimToken n F p fun _ _ => True) (next : ∀ a, Grants D spare hashScimToken n F (f a) R)
    (failed : ∀ e s, R (.error e) s) : Grants D spare hashScimToken n F (p >>= f) R :=
  grantsBind growing first (fun a => tripleMono (next a) (fun _ holds => holds.1) fun _ _ => id) failed

theorem updateIdentityGrants {body : ScimProjection} (growing : LinkGrowing F)
    (projects : ∀ s, F s → Projectable hashScimToken n accountId key body s) :
    Grants D spare hashScimToken n F (updateIdentity accountId key body) fun _ _ => True := by
  unfold updateIdentity
  refine grantsCall growing (fun _ _ => trivial) fun found => ?_
  cases found with
  | none => exact grantsThrow growing fun _ _ => trivial
  | some existing =>
      refine grantsCall growing (fun s holds => ?_) fun updated => ?_
      · exact projects s holds
      · cases updated with
        | none => exact grantsThrow growing fun _ _ => trivial
        | some _ => exact grantsCall (f := .pure) growing (fun _ _ => trivial) fun _ => grantsPure growing fun _ _ => trivial

theorem projectGrants {identity : ScimIdentity} {linked : Option String} (growing : LinkGrowing F)
    (projects : ∀ s, F s → ∀ accountId, linked = some accountId →
      Projectable hashScimToken n accountId connection.sourceKey (ScimLinkService.projection identity) s) :
    Grants D spare hashScimToken n F (ScimLinkService.project connection identity linked) fun _ _ => True := by
  cases linked with
  | none => exact grantsPure growing fun _ _ => trivial
  | some accountId =>
      refine grantsCall growing (fun _ _ => trivial) fun found => ?_
      cases found with
      | none => exact grantsThrow growing fun _ _ => trivial
      | some _ => exact updateIdentityGrants growing fun s holds => projects s holds accountId rfl

def ShownSubject (uid : String) (r : LinkedResource) (s : LinkWorld) : Prop :=
  r.kind = .subject ∧ r.connectionUid = uid ∧ Shown r s

theorem growingSubject (uid : String) (r : LinkedResource) : LinkGrowing (ShownSubject uid r) := by
  rintro s t grows ⟨subject,own,shown⟩
  exact ⟨subject,own,growingShown subject s t grows shown⟩

theorem listSubjectsGrants (growing : LinkGrowing F) : Grants D spare hashScimToken n F (ScimLinkService.listSubjects connection)
    fun r s => ∀ resources, r = .ok resources → ∀ subject ∈ resources, ShownSubject connection.uid subject s := by
  unfold ScimLinkService.listSubjects
  refine grantsAsk (c := .list .subject) (fun resources s => ∀ listed, resources = some listed → ∀ r ∈ listed,
    r.kind = .subject ∧ Shown r s) growing (fun _ _ => trivial) (fun s ledger _ _ listed given r inside => ?_) fun resources => ?_
  · cases Option.some.inj (readGiven given)
    obtain ⟨kind,_,shown⟩ := resourceShown ledger (listedResources inside)
    exact ⟨kind,shown⟩
  · have listing : LinkGrowing fun s => ∀ listed, resources = some listed → ∀ r ∈ listed, r.kind = .subject ∧ Shown r s := by
      intro s t grows told listed given r inside
      obtain ⟨kind,shown⟩ := told listed given r inside
      exact ⟨kind,growingShown kind s t grows shown⟩
    refine grantsPure (growing.and listing) fun s holds listed same subject inside => ?_
    cases same
    obtain ⟨inside,own⟩ := List.mem_filter.mp inside
    cases resources with
    | none => cases inside
    | some listed =>
        obtain ⟨kind,shown⟩ := holds.2 listed rfl subject inside
        exact ⟨kind,of_decide_eq_true own,shown⟩

theorem linkSubjectGrants {subject : LinkedResource} (growing : LinkGrowing F)
    (shown : ∀ s, F s → ShownSubject uid subject s)
    (verified : ∀ s, F s → Verified s.operations s.log n accountId ⟨subject.connectionUid,subject.identity⟩)
    (unlinked : subject.linkedAccountId = none) :
    Grants D spare hashScimToken n F (ScimLinkService.linkSubject subject accountId) fun r s =>
      ∀ updated, r = .ok updated → ShownSubject uid updated s ∧ updated.linkedAccountId = some accountId := by
  unfold ScimLinkService.linkSubject
  refine grantsAsk (c := .linkSubject subject.accountId subject.resourceVersion accountId)
    (fun updated s => ∀ resource, updated = some resource → ShownSubject uid resource s ∧ resource.linkedAccountId = some accountId)
    growing (fun s holds current => ?_) (fun s ledger after kept => ?_) fun updated => ?_
  · obtain ⟨kind,_,shown⟩ := shown s holds
    obtain ⟨stored,links⟩ := shown.same kind current
    exact ⟨_,stored,links.trans unlinked,verified s holds⟩
  · revert after kept
    refine serveCases (P := fun updated t => F t → LinkLedger spare hashScimToken t →
      ∀ resource, updated = some resource → ShownSubject uid resource t ∧ resource.linkedAccountId = some accountId)
      (fun _ _ _ => nofun) fun t done => ⟨fun _ _ _ => nofun,?_⟩
    intro after kept resource given
    obtain ⟨kind,named,now⟩ := resourceShown kept given
    obtain ⟨subjectKind,own,before⟩ := shown t after
    -- the resource is the one that was shown, in the same hands
    obtain ⟨record,there,mine⟩ := before.owner
    obtain ⟨record',found,its⟩ := now.owner
    rw [kind,named] at found
    rw [subjectKind] at there
    cases Option.some.inj (there.symm.trans found)
    refine ⟨⟨kind,its.symm.trans (mine.trans own),now⟩,?_⟩
    obtain ⟨_,_,_,rfl⟩ := linkServed done
    obtain ⟨_,_,same⟩ := Option.map_eq_some_iff.mp given
    rw [← same]
    simp [LinkWorld.linking]
  · have showing : LinkGrowing fun s => ∀ resource, updated = some resource →
        ShownSubject uid resource s ∧ resource.linkedAccountId = some accountId := fun s t grows told resource given =>
      ⟨growingSubject uid resource s t grows (told resource given).1,(told resource given).2⟩
    cases updated with
    | none => exact grantsThrow (growing.and showing) fun _ _ _ => nofun
    | some resource =>
        refine grantsPure (growing.and showing) fun s holds updated same => ?_
        cases same
        exact holds.2 _ rfl

def ListedBy (n : Nat) (connection : ScimConnectionObject) (s : LinkWorld) : Prop :=
  ∃ connections, .listed n connections ∈ s.log ∧ connection ∈ connections ∧ connection.disabled = false

theorem growingListed (n : Nat) (connection : ScimConnectionObject) : LinkGrowing (ListedBy n connection) := by
  rintro s t grows ⟨connections,listed,among,enabled⟩
  exact ⟨connections,grows.log listed,among,enabled⟩

theorem listConnectionsGrants (growing : LinkGrowing F) : Grants D spare hashScimToken n F ScimConnectionService.list
    fun r s => ∀ connections, r = .ok connections → ∀ connection ∈ connections, ListedBy n connection s := by
  unfold ScimConnectionService.list
  refine grantsAsk (c := .connections) (fun connections s => ∀ listed, connections = some listed → .listed n listed ∈ s.log)
    growing (fun _ _ => trivial) (fun s _ _ _ => ?_) fun connections => ?_
  · simp only [answerLinks]
    split
    · intro listed given
      cases given
      exact List.mem_cons_self ..
    · exact nofun
  · have listing : LinkGrowing fun s => ∀ listed, connections = some listed → LinkEvent.listed n listed ∈ s.log :=
      fun s t grows told listed given => grows.log (told listed given)
    refine grantsPure (growing.and listing) fun s holds enabled same connection inside => ?_
    cases same
    obtain ⟨inside,on⟩ := List.mem_filter.mp inside
    cases connections with
    | none => cases inside
    | some listed => exact ⟨listed,holds.2 listed rfl,inside,by simpa using on⟩

theorem linkMatchedGrants {connection : ScimConnectionObject} {providerKey externalId : String} {linkClaims : Object}
    (growing : LinkGrowing F) (asked : ∀ s, F s → s.operations[n]? = some (.login providerKey accountId linkClaims))
    (listed : ∀ s, F s → ListedBy n connection s)
    (fits : ScimLinkService.matched providerKey linkClaims connection = some externalId) :
    Grants D spare hashScimToken n F (ScimLinkService.linkMatched connection accountId externalId) fun _ _ => True := by
  unfold ScimLinkService.linkMatched
  refine grantsBind growing (listSubjectsGrants growing) (fun subjects => ?_) fun _ _ => trivial
  cases found : subjects.find? (·.identity.externalId = some (.string externalId)) with
  | none =>
      refine tripleMono (P := F) (grantsPure growing fun _ _ => trivial) (fun s holds => holds.1) fun _ _ => id
  | some subject =>
      have showing := growing.and (growingSubject connection.uid subject)
      have inside := List.mem_of_find?_eq_some found
      have named : subject.identity.externalId = some (.string externalId) :=
        of_decide_eq_true (List.find?_some found :)
      refine tripleMono (P := fun s => F s ∧ ShownSubject connection.uid subject s) ?_
        (fun s holds => ⟨holds.1,holds.2 subjects rfl subject inside⟩) fun _ _ => id
      have verified (s : LinkWorld) (holds : F s ∧ ShownSubject connection.uid subject s) :
          Verified s.operations s.log n accountId ⟨subject.connectionUid,subject.identity⟩ := by
        obtain ⟨connections,event,among,enabled⟩ := listed s holds.1
        exact ⟨providerKey,externalId,linkClaims,connections,connection,asked s holds.1,event,among,enabled,fits,holds.2.2.1,named⟩
      have updated : Grants D spare hashScimToken n (fun s => F s ∧ ShownSubject connection.uid subject s)
          (ScimLinkService.linkUnlessLinked subject accountId) fun r s =>
            ∀ updated, r = .ok updated → ShownSubject connection.uid updated s ∧ updated.linkedAccountId = some accountId := by
        unfold ScimLinkService.linkUnlessLinked
        cases linked : subject.linkedAccountId with
        | none => exact linkSubjectGrants showing (fun s holds => holds.2) verified linked
        | some other =>
            dsimp only
            split
            · exact grantsThrow showing fun _ _ _ => nofun
            · rename_i same
              refine grantsPure showing fun s holds updated done => ?_
              cases done
              exact ⟨holds.2,linked.trans (congrArg some (not_not.mp same))⟩
      refine grantsBind showing updated (fun resource => ?_) fun _ _ => trivial
      have known := (showing.and (growingSubject connection.uid resource)).and
        (growingConstant (resource.linkedAccountId = some accountId))
      refine tripleMono (P := fun s => ((F s ∧ ShownSubject connection.uid subject s) ∧ ShownSubject connection.uid resource s) ∧
        resource.linkedAccountId = some accountId) ?_
        (fun s holds => ⟨⟨holds.1,(holds.2 resource rfl).1⟩,(holds.2 resource rfl).2⟩) fun _ _ => id
      refine grantsThen known (projectGrants known fun s holds account linked => ?_)
        (fun _ => grantsPure known fun _ _ => trivial) fun _ _ => trivial
      obtain ⟨⟨before,shown⟩,own⟩ := holds
      cases Option.some.inj (linked.symm.trans own)
      exact shownProjectable shown.2.2 linked shown.2.1
        (.inl ⟨rfl,rfl,.inr ⟨_,verified s before,before.2.2.1.trans shown.2.1.symm⟩⟩)

theorem linkEachGrants {providerKey : String} {linkClaims : Object} {rest : List ScimConnectionObject} (growing : LinkGrowing F)
    (asked : ∀ s, F s → s.operations[n]? = some (.login providerKey accountId linkClaims))
    (listed : ∀ s, F s → ∀ connection ∈ rest, ListedBy n connection s) :
    Grants D spare hashScimToken n F (ScimLinkService.linkEach providerKey accountId linkClaims rest) fun _ _ => True := by
  induction rest with
  | nil => exact grantsPure growing fun _ _ => trivial
  | cons connection rest ih =>
      unfold ScimLinkService.linkEach
      have first : Grants D spare hashScimToken n F (ScimLinkService.linkConnection providerKey accountId linkClaims connection)
          fun _ _ => True := by
        unfold ScimLinkService.linkConnection
        cases fits : ScimLinkService.matched providerKey linkClaims connection with
        | none => exact grantsPure growing fun _ _ => trivial
        | some externalId =>
            exact linkMatchedGrants growing asked (fun s holds => listed s holds connection (List.mem_cons_self ..)) fits
      refine grantsThen growing first (fun linked => ?_) fun _ _ => trivial
      refine grantsThen growing (ih fun s holds other inside => listed s holds other (List.mem_cons_of_mem _ inside))
        (fun _ => grantsPure growing fun _ _ => trivial) fun _ _ => trivial

theorem linkAccountGrants {providerKey : String} {linkClaims : Object} (growing : LinkGrowing F)
    (asked : ∀ s, F s → s.operations[n]? = some (.login providerKey accountId linkClaims)) :
    Grants D spare hashScimToken n F (ScimLinkService.linkAccount providerKey accountId linkClaims) fun _ _ => True := by
  unfold ScimLinkService.linkAccount
  split
  · exact grantsPure growing fun _ _ => trivial
  · refine grantsBind growing (listConnectionsGrants growing) (fun connections => ?_) fun _ _ => trivial
    have listing : LinkGrowing fun s => ∀ connection ∈ connections, ListedBy n connection s :=
      fun s t grows told connection inside => growingListed n connection s t grows (told connection inside)
    refine tripleMono (P := fun s => F s ∧ ∀ connection ∈ connections, ListedBy n connection s)
      (linkEachGrants (growing.and listing) (fun s holds => asked s holds.1) fun s holds => holds.2)
      (fun s holds => ⟨holds.1,holds.2 connections rfl⟩) fun _ _ => id

theorem revokeSubjectsGrants {subjects : List LinkedResource} (growing : LinkGrowing F)
    (revokes : ∀ s, F s → ∃ operation, s.operations[n]? = some operation ∧ operation.Revokes connection.uid)
    (shown : ∀ s, F s → ∀ subject ∈ subjects, ShownSubject connection.uid subject s) :
    Grants D spare hashScimToken n F (ScimLinkService.revokeSubjects connection subjects) fun _ _ => True := by
  induction subjects with
  | nil => exact grantsPure growing fun _ _ => trivial
  | cons subject rest ih =>
      have others := ih fun s holds other inside => shown s holds other (List.mem_cons_of_mem _ inside)
      unfold ScimLinkService.revokeSubjects
      cases linked : subject.linkedAccountId with
      | none => exact others
      | some accountId =>
          refine grantsCall growing (fun _ _ => trivial) fun found => ?_
          cases found with
          | none => exact others
          | some _ =>
              refine grantsThen growing (updateIdentityGrants growing fun s holds => ?_) (fun _ => others) fun _ _ => trivial
              obtain ⟨_,own,here⟩ := shown s holds subject (List.mem_cons_self ..)
              exact shownProjectable here linked own (.inr ⟨rfl,rfl,own.symm ▸ revokes s holds⟩)

theorem revokeConnectionGrants (growing : LinkGrowing F)
    (revokes : ∀ s, F s → ∃ operation, s.operations[n]? = some operation ∧ operation.Revokes connection.uid) :
    Grants D spare hashScimToken n F (ScimLinkService.revokeConnection connection) fun _ _ => True := by
  unfold ScimLinkService.revokeConnection
  refine grantsBind growing (listSubjectsGrants growing) (fun subjects => ?_) fun _ _ => trivial
  have showing : LinkGrowing fun s => ∀ subject ∈ subjects, ShownSubject connection.uid subject s :=
    fun s t grows told subject inside => growingSubject connection.uid subject s t grows (told subject inside)
  refine tripleMono (P := fun s => F s ∧ ∀ subject ∈ subjects, ShownSubject connection.uid subject s)
    (revokeSubjectsGrants (growing.and showing) (fun s holds => revokes s holds.1) fun s holds => holds.2)
    (fun s holds => ⟨holds.1,holds.2 subjects rfl⟩) fun _ _ => id

theorem carryBind (p : Scim α) (f : α → Scim β) (memory : Remembered) : carry connection memory (p >>= f) =
    carry connection memory p >>= fun out => carry connection out.2 (f out.1) := by
  induction p generalizing memory with
  | pure a => rfl
  | throw e => rfl
  | call c next ih =>
      cases c with
      | list kind => exact congrArg (Program.call (I := linkCalls) (.list kind)) (funext fun listed => ih _ _)
      | get kind name => exact congrArg (Program.call (I := linkCalls) (.get kind name)) (funext fun found => ih _ _)
      | create kind name record =>
          exact congrArg (Program.call (I := linkCalls) (.create kind name record)) (funext fun created => ih _ _)
      | patch kind name identity =>
          cases found : memory.found with
          | none =>
              simp only [callBind,carry,found]
              exact ih _ _
          | some existing =>
              simp only [callBind,carry,found]
              exact congrArg (Program.call (I := linkCalls) (.patch kind name existing.identity identity))
                (funext fun updated => ih _ _)
      | project resource =>
          simp only [callBind,carry,bindAssoc]
          exact congrArg _ (funext fun _ => ih _ _)
      | now => exact congrArg (Program.call (I := linkCalls) .now) (funext fun time => ih _ _)

def OwnedBy (kind : ScimKind) (name uid : String) (s : LinkWorld) : Prop :=
  ∃ record, s.directory.find kind name = some record ∧ record.connectionUid = uid

theorem growingOwned (kind : ScimKind) (name uid : String) : LinkGrowing (OwnedBy kind name uid) := by
  rintro s t grows ⟨record,there,own⟩
  obtain ⟨later,found,mine⟩ := grows.owners kind name record there
  exact ⟨later,found,mine.trans own⟩

theorem onChangeCarries {resource : ScimResource} {memory : Remembered} (growing : LinkGrowing F)
    (projects : ∀ s, F s → ∀ accountId, memory.linked = some accountId →
      Projectable hashScimToken n accountId connection.sourceKey (ScimLinkService.projection resource.identity) s) :
    Grants D spare hashScimToken n F (carry connection memory (ScimDirectoryService.onChange resource)) fun _ _ => True := by
  unfold ScimDirectoryService.onChange
  rw [askBind,carry]
  exact grantsThen growing (projectGrants growing projects) (fun _ => grantsPure growing fun _ _ => trivial) fun _ _ => trivial

def WriteShown (uid : String) (written : Option LinkedResource) (s : LinkWorld) : Prop :=
  ∀ r, written = some r → ∀ accountId, r.linkedAccountId = some accountId → ShownSubject uid r s

theorem growingWrite (uid : String) (written : Option LinkedResource) : LinkGrowing (WriteShown uid written) :=
  fun s t grows told r given accountId linked => growingSubject uid r s t grows (told r given accountId linked)

theorem writtenCarries {memory : Remembered} {r : LinkedResource} {a : α} (growing : LinkGrowing F)
    (authorised : ∀ s, F s → Authorised hashScimToken s.operations s.log n connection.uid)
    (linked : memory.linked = r.linkedAccountId) (shown : ∀ s, F s → WriteShown connection.uid (some r) s) :
    Grants D spare hashScimToken n F (carry connection memory (ScimDirectoryService.onChange r.toScimResource >>= fun _ => .pure a))
      fun _ _ => True := by
  rw [carryBind]
  refine grantsThen growing (onChangeCarries growing fun s holds accountId given => ?_) (fun out => ?_) fun _ _ => trivial
  · have given := linked.symm.trans given
    obtain ⟨_,own,there⟩ := shown s holds r rfl accountId given
    exact shownProjectable there given own (.inl ⟨rfl,rfl,.inl (own.symm ▸ authorised s holds)⟩)
  · exact grantsPure growing fun _ _ => trivial

theorem findUserCarries {id : String} {memory : Remembered} (growing : LinkGrowing F) :
    Grants D spare hashScimToken n F (carry connection memory (ScimDirectoryService.findUser connection id)) fun r s =>
      ∀ resource memory, r = .ok (some resource,memory) →
        memory.found = some resource ∧ resource.accountId = id ∧ OwnedBy resource.kind id connection.uid s := by
  have getting : ∀ kind s, LinkLedger spare hashScimToken s → ∀ r, s.read (s.resource kind id) = some r →
      r.kind = kind ∧ r.accountId = id ∧ OwnedBy kind id r.connectionUid s := by
    intro kind s ledger r given
    obtain ⟨rfl,rfl,shown⟩ := resourceShown ledger (readGiven given)
    exact ⟨rfl,rfl,shown.owner⟩
  have knowing : ∀ (kind : ScimKind) (found : Option LinkedResource), LinkGrowing fun s => ∀ r, found = some r →
      r.kind = kind ∧ r.accountId = id ∧ OwnedBy kind id r.connectionUid s := by
    intro kind found s t grows told r given
    obtain ⟨here,named,own⟩ := told r given
    exact ⟨here,named,growingOwned _ _ _ s t grows own⟩
  unfold ScimDirectoryService.findUser
  rw [askBind,carry]
  refine grantsAsk (c := .get .subject id) (fun found s => ∀ r, found = some r →
    r.kind = .subject ∧ r.accountId = id ∧ OwnedBy .subject id r.connectionUid s) growing (fun _ _ => trivial)
    (fun s ledger _ _ => getting .subject s ledger) fun subject => ?_
  cases own : (subject.map (·.toScimResource)).filter (·.connectionUid = connection.uid) with
  | some found =>
      refine grantsPure (growing.and (knowing .subject subject)) fun s holds resource last same => ?_
      cases same
      obtain ⟨given,mine⟩ := Option.filter_eq_some_iff.mp own
      obtain ⟨r,rfl,rfl⟩ := Option.map_eq_some_iff.mp given
      obtain ⟨kind,named,owned⟩ := holds.2 r rfl
      have uid : r.connectionUid = connection.uid := of_decide_eq_true mine
      exact ⟨rfl,named,by rw [kind,← uid]; exact owned⟩
  | none =>
      dsimp only
      rw [askBind,carry]
      refine grantsAsk (c := .get .group id) (fun found s => ∀ r, found = some r →
        r.kind = .group ∧ r.accountId = id ∧ OwnedBy .group id r.connectionUid s) (growing.and (knowing .subject subject))
        (fun _ _ => trivial) (fun s ledger _ _ => getting .group s ledger) fun group => ?_
      refine grantsPure ((growing.and (knowing .subject subject)).and (knowing .group group)) fun s holds resource last same => ?_
      obtain ⟨found,remembered⟩ := Prod.mk.inj (Except.ok.inj same)
      obtain ⟨given,mine⟩ := Option.filter_eq_some_iff.mp found
      obtain ⟨r,rfl,rfl⟩ := Option.map_eq_some_iff.mp given
      obtain ⟨kind,named,owned⟩ := holds.2 r rfl
      have uid : r.connectionUid = connection.uid := of_decide_eq_true mine
      subst remembered
      exact ⟨rfl,named,by rw [kind,← uid]; exact owned⟩

theorem createCarries {kind : ScimKind} {name : String} {identity : ScimIdentity} {memory : Remembered} (growing : LinkGrowing F)
    (authorised : ∀ s, F s → Authorised hashScimToken s.operations s.log n connection.uid) :
    Grants D spare hashScimToken n F
      (carry connection memory (ScimDirectoryService.createProvisionedUser connection name kind identity)) fun _ _ => True := by
  unfold ScimDirectoryService.createProvisionedUser
  rw [askBind,carry]
  refine grantsAsk (c := .create kind name ⟨connection.uid,identity⟩) (fun created => WriteShown connection.uid created) growing
    authorised (fun s ledger after kept => ?_) fun created => ?_
  · revert kept
    refine serveCases (P := fun created t => LinkLedger spare hashScimToken t → WriteShown connection.uid created t) (fun _ _ => nofun)
      fun t done => ⟨fun _ _ => nofun,?_⟩
    intro kept r given accountId linked
    obtain ⟨fresh,rfl⟩ := createServed done
    obtain ⟨rfl,rfl,shown⟩ := resourceShown kept given
    obtain ⟨record,there,own⟩ := shown.owner
    simp only [LinkWorld.created,LinkWorld.written,findPut,and_self,if_true] at there
    cases Option.some.inj there
    exact ⟨(shown.linked accountId linked).1,own.symm,shown⟩
  · have writing := growing.and (growingWrite connection.uid created)
    cases created with
    | none => exact grantsPure writing fun _ _ => trivial
    | some r => exact writtenCarries writing (fun s holds => authorised s holds.1) rfl fun s holds => holds.2

theorem updateCarries {id : String} {identity : ScimIdentity} {memory : Remembered} (growing : LinkGrowing F)
    (authorised : ∀ s, F s → Authorised hashScimToken s.operations s.log n connection.uid) :
    Grants D spare hashScimToken n F (carry connection memory (ScimDirectoryService.updateUserSpecs connection id identity))
      fun _ _ => True := by
  unfold ScimDirectoryService.updateUserSpecs
  rw [carryBind]
  refine grantsBind growing (findUserCarries growing) (fun out => ?_) fun _ _ => trivial
  obtain ⟨found,last⟩ := out
  cases found with
  | none => exact tripleMono (P := F) (grantsThrow growing fun _ _ => trivial) (fun s holds => holds.1) fun _ _ ended => ended
  | some resource =>
      have knowing : LinkGrowing fun s => F s ∧ OwnedBy resource.kind id connection.uid s := growing.and (growingOwned _ _ _)
      by_cases remembered : last.found = some resource
      · refine tripleMono (P := fun s => F s ∧ OwnedBy resource.kind id connection.uid s) ?_
          (fun s holds => ⟨holds.1,(holds.2 resource last rfl).2.2⟩) fun _ _ ended => ended
        dsimp only
        rw [askBind,carry,remembered]
        refine grantsAsk (c := .patch resource.kind id resource.identity identity)
          (fun updated => WriteShown connection.uid updated) knowing (fun s holds => ?_) (fun s ledger after kept => ?_)
          fun updated => ?_
        · obtain ⟨record,there,own⟩ := holds.2
          exact ⟨record,there,own ▸ authorised s holds.1⟩
        · revert after kept
          refine serveCases (P := fun updated t => F t ∧ OwnedBy resource.kind id connection.uid t → LinkLedger spare hashScimToken t →
            WriteShown connection.uid updated t) (fun _ _ _ => nofun) fun t done => ⟨fun _ _ _ => nofun,?_⟩
          intro after kept r given accountId linked
          obtain ⟨kind,named,shown⟩ := resourceShown kept given
          obtain ⟨record,there,own⟩ := shown.owner
          obtain ⟨record',found,mine⟩ := after.2
          rw [kind,named] at there
          cases Option.some.inj (there.symm.trans found)
          exact ⟨(shown.linked accountId linked).1,own.symm.trans mine,shown⟩
        · have writing := knowing.and (growingWrite connection.uid updated)
          cases updated with
          | none => exact grantsThrow writing fun _ _ => trivial
          | some r => exact writtenCarries writing (fun s holds => authorised s holds.1.1) rfl fun s holds => holds.2
      · exact fun s holds => absurd (holds.2 resource last rfl).1 remembered

theorem carryGrants {p : Scim α} (within : Scoped digest connection p) (growing : LinkGrowing F)
    (authorised : ∀ s, F s → Authorised hashScimToken s.operations s.log n connection.uid) (memory : Remembered) :
    Grants D spare hashScimToken n F (carry connection memory p) fun _ _ => True := by
  induction within generalizing memory with
  | pure a => exact grantsPure growing fun _ _ => trivial
  | throw e => exact grantsThrow growing fun _ _ => trivial
  | bind first rest ihFirst ihRest =>
      rw [carryBind]
      exact grantsThen growing (ihFirst memory) (fun out => ihRest out.1 out.2) fun _ _ => trivial
  | now => exact grantsCall (f := fun time => .pure (time,memory)) growing (fun _ _ => trivial) fun _ =>
      grantsPure growing fun _ _ => trivial
  | list kind => exact grantsCall (c := .list kind) growing (fun _ _ => trivial) fun _ => grantsPure growing fun _ _ => trivial
  | find id => exact tripleMono (findUserCarries growing) (fun _ holds => holds) fun _ _ _ => trivial
  | create kind externalId identity => exact createCarries growing authorised
  | update id identity => exact updateCarries growing authorised

def FoundBy (n : Nat) (connection : ScimConnectionObject) (s : LinkWorld) : Prop :=
  .found n connection ∈ s.log ∧ connection.disabled = false

theorem growingFound (n : Nat) (connection : ScimConnectionObject) : LinkGrowing (FoundBy n connection) :=
  (growingEvent (.found n connection)).and (growingConstant (connection.disabled = false))

theorem findConnectionGrants {id : String} (growing : LinkGrowing F) :
    Grants D spare hashScimToken n F (ScimConnectionService.find id) fun r s =>
      ∀ connection, r = .ok connection → FoundBy n connection s := by
  unfold ScimConnectionService.find
  refine grantsAsk (c := .connection id) (fun found s => ∀ connection, found = some connection → .found n connection ∈ s.log)
    growing (fun _ _ => trivial) (fun s _ _ _ => ?_) fun found => ?_
  · simp only [answerLinks]
    split
    · intro connection given
      cases given
      exact List.mem_cons_self ..
    · intro connection given
      cases given
  · have noted : LinkGrowing fun s => ∀ connection, found = some connection → LinkEvent.found n connection ∈ s.log :=
      fun s t grows told connection given => grows.log (told connection given)
    cases enabled : found.filter (fun connection => !connection.disabled) with
    | none => exact grantsThrow (growing.and noted) fun _ _ _ same => by cases same
    | some connection =>
        refine grantsPure (growing.and noted) fun s holds given same => ?_
        cases same
        obtain ⟨here,on⟩ := Option.filter_eq_some_iff.mp enabled
        exact ⟨holds.2 connection here,by simpa using on⟩

theorem routeGrants {connectionId authorization : String} {command : ScimCommand} (growing : LinkGrowing F)
    (asked : ∀ s, F s → s.operations[n]? = some (.scim connectionId authorization command)) :
    Grants D spare hashScimToken n F (scimRoute hashScimToken digest connectionId authorization command) fun _ _ => True := by
  unfold scimRoute
  refine grantsBind (Q := fun r s => ∀ connection, r = .ok (some connection) → FoundBy n connection s) growing ?_
    (fun found => ?_) fun _ _ => trivial
  · refine tripleTryCatch linkGrowsSelf (fun _ _ => True) ?_ fun e => ?_
    · refine grantsBind growing (findConnectionGrants growing) (fun connection => ?_) fun _ _ => trivial
      have finding : LinkGrowing fun s => ∀ other, Except.ok (ε := ScimFailure) connection = .ok other → FoundBy n other s :=
        fun s t grows told other same => growingFound n other s t grows (told other same)
      refine grantsPure (growing.and finding) fun s holds other same => ?_
      cases same
      exact holds.2 _ rfl
    · split
      · exact grantsPure (growingConstant True) fun _ _ _ => nofun
      · exact grantsThrow (growingConstant True) fun _ _ _ => nofun
  · have finding : LinkGrowing fun s => ∀ connection, Except.ok (ε := ScimFailure) found = .ok (some connection) →
        FoundBy n connection s := fun s t grows told other same => growingFound n other s t grows (told other same)
    cases given : found.filter fun connection =>
        ScimConnectionService.authenticate hashScimToken connection (bearerToken authorization) with
    | none => exact grantsPure (growing.and finding) fun _ _ => trivial
    | some connection =>
        obtain ⟨here,authenticated⟩ := Option.filter_eq_some_iff.mp given
        refine grantsThen (growing.and finding)
          (carryGrants command.respondScoped (growing.and finding) (fun s holds => ?_) {})
          (fun _ => grantsPure (growing.and finding) fun _ _ => trivial) fun _ _ => trivial
        obtain ⟨event,enabled⟩ := holds.2 connection (congrArg _ here)
        exact ⟨connectionId,authorization,command,connection,⟨asked s holds.1,event,enabled,authenticated⟩,rfl⟩

theorem approveGrants (growing : LinkGrowing F) (asked : ∀ s, F s → s.operations[n]? = some (.approve accountId)) :
    Grants D spare hashScimToken n F (Account.approve accountId) fun _ _ => True := by
  unfold Account.approve
  refine grantsAsk (c := .findUser accountId) (fun found s => ∀ specs, found = some specs → spare →
    ∀ uid, (specs.bind (mapGet ("scim-" ++ uid))).isSome → ProjectedOn s.log accountId uid) growing (fun _ _ => trivial)
    (fun s ledger _ _ specs given spares uid held => ?_) fun found => ?_
  · refine ledger.entries spares accountId uid ?_
    have there : s.users accountId = some specs := readGiven given
    rw [LinkWorld.entry,there]
    exact held
  · cases found with
    | none => exact tripleMono (grantsThrow growing fun _ _ => trivial) (fun _ holds => holds.1) fun _ _ => id
    | some specs =>
        have known : LinkGrowing fun s => ∀ read, some specs = some read → spare →
            ∀ uid, (read.bind (mapGet ("scim-" ++ uid))).isSome → ProjectedOn s.log accountId uid := by
          intro s t grows told read same spares uid held
          obtain ⟨m,values,projected⟩ := told read same spares uid held
          exact ⟨m,values,grows.log projected⟩
        have knowing := growing.and known
        refine grantsCall knowing (fun _ _ => trivial) fun again => ?_
        cases again with
        | none => exact grantsThrow knowing fun _ _ => trivial
        | some existing =>
            refine grantsCall knowing (fun s holds => ⟨asked s holds.1,holds.2 specs rfl⟩) fun updated => ?_
            cases updated with
            | none => exact grantsThrow knowing fun _ _ => trivial
            | some _ => exact grantsCall (f := .pure) knowing (fun _ _ => trivial) fun _ => grantsPure knowing fun _ _ => trivial

theorem operationGrants (operation : LinkOperation) :
    Grants D spare hashScimToken n (fun s => s.operations[n]? = some operation) (operation.thread hashScimToken digest)
      fun _ _ => True := by
  have asking := growingOperation n operation
  refine grantsThen asking ?_ (fun _ => ?_) fun _ _ => trivial
  · cases operation with
    | login providerKey accountId linkClaims =>
        simp only [LinkOperation.program]
        split
        · exact grantsPure asking fun _ _ => trivial
        · exact grantsThen asking (linkAccountGrants asking fun s holds => holds) (fun _ => grantsPure asking fun _ _ => trivial)
            fun _ _ => trivial
    | scim connectionId authorization command =>
        exact grantsThen asking (routeGrants asking fun s holds => holds) (fun _ => grantsPure asking fun _ _ => trivial)
          fun _ _ => trivial
    | reconcile connection =>
        simp only [LinkOperation.program]
        split
        · rename_i disabled
          exact revokeConnectionGrants asking fun s holds => ⟨_,holds,disabled,rfl⟩
        · exact grantsPure asking fun _ _ => trivial
    | deleted connection => exact revokeConnectionGrants asking fun s holds => ⟨_,holds,rfl⟩
    | approve accountId => exact approveGrants asking fun s holds => holds
  · exact grantsCall (f := .pure) asking (fun _ _ => trivial) fun _ => grantsPure asking fun _ _ => trivial

end Operations

namespace LinkPool
variable {D : ScimDeltas} {spare : Prop} {hashScimToken digest : String → String} {pool : LinkPool} {s t u : LinkWorld} {n m : Nat}

structure Accounted (D : ScimDeltas) (spare : Prop) (hashScimToken : String → String) (pool : LinkPool) : Prop where
  steady : pool.Steady (answerLinks D) LinkCall.awaits fun _ => ledgerContract spare hashScimToken
  ledger : LinkLedger spare hashScimToken pool.state
  numbered : pool.state.operations.length = pool.threads.length

theorem ledgerApart (_ : n ≠ m) (moved : (ledgerContract spare hashScimToken).guarantee s t) :
    (ledgerContract spare hashScimToken).rely s t :=
  moved.1

theorem idle (s : LinkWorld) : (ledgerContract spare hashScimToken).guarantee s s := ⟨linkGrowsSelf s,rfl,id⟩

theorem editAccounted {f : LinkWorld → LinkWorld} (accounted : Accounted D spare hashScimToken pool)
    (grows : LinkGrows pool.state (f pool.state)) (ledger : LinkLedger spare hashScimToken (f pool.state))
    (operations : (f pool.state).operations = pool.state.operations) : Accounted D spare hashScimToken (pool.edit f) where
  steady := Pool.steadyEdit (fun _ _ _ _ => linkGrowsTrans) accounted.steady fun _ => grows
  ledger := ledger
  numbered := (congrArg List.length operations).trans accounted.numbered

theorem startedGrows (s : LinkWorld) (operation : LinkOperation) :
    LinkGrows s {s with operations := s.operations ++ [operation]} := by
  refine ⟨List.Subset.refl _,fun k other asked => ?_,fun _ _ record there => ⟨record,there,rfl⟩,fun _ => le_refl _,
    fun _ _ => ⟨rfl,rfl⟩⟩
  have within := (List.getElem?_eq_some_iff.mp asked).1
  simpa [List.getElem?_append_left within] using asked

theorem configuredGrows (id : String) (connection : Option ScimConnectionObject) : LinkGrows s (s.configure id connection) := by
  cases connection with
  | none => exact linkGrowsApart (List.Subset.refl _) rfl rfl rfl rfl
  | some connection => exact linkGrowsApart (List.subset_cons_self _ _) rfl rfl rfl rfl

theorem configuredLedger (ledger : LinkLedger spare hashScimToken s) (id : String) (connection : Option ScimConnectionObject) :
    LinkLedger spare hashScimToken (s.configure id connection) := by
  cases connection with
  | none =>
      refine ⟨ledger.lawful,fun entry inside => ?_,ledger.stored,ledger.owners,ledger.linked,ledger.entries⟩
      exact ledger.connections entry (List.mem_filter.mp inside).1
  | some connection =>
      have noted : LinkLedger spare hashScimToken (s.noting (.configured id connection)) :=
        notedLedger ledger trivial ⟨fun _ _ _ => nofun,fun _ _ _ _ => nofun⟩
      refine ⟨noted.lawful,fun entry inside => ?_,noted.stored,noted.owners,noted.linked,noted.entries⟩
      rcases mapSetMember inside with rfl | before
      · exact List.mem_cons_self ..
      · exact List.mem_cons_of_mem _ (ledger.connections entry before)

theorem editedLedger (ledger : LinkLedger spare hashScimToken s) (accountId : String) {edit : Option Identities → Option Identities}
    (kept : spare → SparesConnections edit) : LinkLedger spare hashScimToken (s.editUser accountId edit) where
  lawful := ledger.lawful
  connections := ledger.connections
  stored := ledger.stored
  owners := ledger.owners
  linked := ledger.linked
  entries spares account uid held := by
    refine ledger.entries spares account uid ?_
    simp only [LinkWorld.entry,LinkWorld.editUser] at held ⊢
    split at held
    · rename_i same
      subst same
      rcases kept spares (s.users account) uid with kept | gone
      · exact kept ▸ held
      · rw [gone] at held
        cases held
    · exact held

theorem facedLedger {outcome : PatchOutcome} {time : String} (ledger : LinkLedger spare hashScimToken pool.state) :
    LinkLedger spare hashScimToken (facing outcome time pool).state :=
  ⟨ledger.lawful,ledger.connections,ledger.stored,ledger.owners,ledger.linked,ledger.entries⟩

theorem stepAccounted (accounted : Accounted D spare hashScimToken pool) (move : LinkMove) (kept : spare → move.Spares) :
    Accounted D spare hashScimToken (step D hashScimToken digest pool move) := by
  cases move with
  | start operation =>
      have edited : Pool.Steady (answerLinks D) LinkCall.awaits (fun _ => ledgerContract spare hashScimToken)
          (pool.edit fun s => {s with operations := s.operations ++ [operation]}) :=
        Pool.steadyEdit (fun _ _ _ _ => linkGrowsTrans) accounted.steady fun _ => startedGrows pool.state operation
      have ledger : LinkLedger spare hashScimToken {pool.state with operations := pool.state.operations ++ [operation]} :=
        begunLedger accounted.ledger operation
      have asked : (pool.state.operations ++ [operation])[pool.threads.length]? = some operation := by
        rw [← accounted.numbered]
        exact List.getElem?_concat_length
      have instant (c : LinkCall) : c.awaits ≠ false := nofun
      have sound : Sound (answerLinks D pool.threads.length) (ledgerContract spare hashScimToken)
          (operation.thread hashScimToken digest) (fun _ _ => True)
          {pool.state with operations := pool.state.operations ++ [operation]} := operationGrants operation _ asked
      have keeps := soundKeeps (fun c never => absurd never (instant c)) (idle _) sound
      obtain ⟨steady,kept⟩ := Pool.steadySpawn (fun _ _ _ _ => linkGrowsTrans) ledgerApart edited keeps
      refine ⟨steady,kept.2.2 ledger,?_⟩
      rw [step,kept.2.1]
      simp [Pool.edit,Pool.spawn,accounted.numbered]
  | proceed n outcome time =>
      have faced : Accounted D spare hashScimToken (facing outcome time pool) :=
        editAccounted accounted (linkGrowsApart (List.Subset.refl _) rfl rfl rfl rfl) (facedLedger accounted.ledger) rfl
      have ready : (facing outcome time pool).Ready (fun _ => (ledgerContract spare hashScimToken).ok) n := by
        unfold Pool.Ready
        split
        · exact faced.ledger
        · trivial
      obtain ⟨steady,kept⟩ := Pool.steadyProceed (w := ()) (fun _ _ _ _ => linkGrowsTrans) ledgerApart (linkGrowsSelf _)
        (idle _) faced.steady ready
      refine ⟨steady,kept.2.2 faced.ledger,?_⟩
      rw [step,Pool.proceedLength,kept.2.1]
      exact faced.numbered
  | configure id connection =>
      exact editAccounted (f := fun s => s.configure id connection) accounted (configuredGrows id connection)
        (configuredLedger accounted.ledger id connection) (by cases connection <;> rfl)
  | editUser accountId edit =>
      exact editAccounted (f := fun s => s.editUser accountId edit) accounted
        (linkGrowsApart (List.Subset.refl _) rfl rfl rfl rfl) (editedLedger accounted.ledger accountId kept) rfl

theorem runAccounted (moves : List LinkMove) (accounted : Accounted D spare hashScimToken pool)
    (kept : spare → ∀ move ∈ moves, move.Spares) :
    Accounted D spare hashScimToken (run D hashScimToken digest moves pool) := by
  have each : EachStep (step D hashScimToken digest) (fun _ move => spare → move.Spares) moves pool :=
    eachStepOfMem fun move inside _ spares => kept spares move inside
  exact eachStepKeeps (Accounted D spare hashScimToken) (fun _ move => (stepAccounted · move ·)) accounted each

theorem beginAccounted : Accounted D spare hashScimToken begin where
  steady := Pool.steadyEmpty _
  ledger := {
    lawful := trivial
    connections := nofun
    stored := nofun
    owners := nofun
    linked _ _ := ⟨nofun,fun ⟨_,_,inside⟩ => nomatch inside⟩
    entries := fun _ _ _ held => by cases held}
  numbered := rfl

end LinkPool

/- Whatever logins, SCIM requests, revocations, approvals and edits do at the same time, every event has its justification; a
subject is linked to the one account that was the first to link it; and where edits leave the identities of connections alone, an
account has one only if one was projected onto it. -/
theorem scimGrantsVerified (D : ScimDeltas) (hashScimToken digest : String → String) (moves : List LinkMove) :
    let s := (LinkPool.run D hashScimToken digest moves LinkPool.begin).state
    Lawful (LinkJustified hashScimToken s.operations) s.log ∧
      (∀ name accountId, s.links name = some accountId ↔ ∃ n record, .linked n name accountId record ∈ s.log) ∧
      ((∀ move ∈ moves, move.Spares) → ∀ accountId uid, (s.entry accountId ("scim-" ++ uid)).isSome →
        ProjectedOn s.log accountId uid) := by
  have accounted : LinkPool.Accounted D (∀ move ∈ moves, move.Spares) hashScimToken
      (LinkPool.run D hashScimToken digest moves LinkPool.begin) := LinkPool.runAccounted moves LinkPool.beginAccounted id
  exact ⟨accounted.ledger.lawful,accounted.ledger.linked,accounted.ledger.entries⟩

end Passmower
