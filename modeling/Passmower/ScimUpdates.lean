import Passmower.ScimRaces

/-! What concurrent SCIM requests leave of each other's writes, when each patch finds in the record what the request had
read of it before. -/
namespace Passmower
open JavaScript Resumption Program ObjectPatch ScimService

section Patches
variable {D : ScimDeltas} {digest : String → String} {connection : ScimConnection} {command : ScimCommand} {kind : ScimKind}
  {name : String} {field : ScimField} {a b c source existing values current patched : ScimIdentity}

theorem sameSelf (field : ScimField) (a : ScimIdentity) : field.Same a a := by
  cases field <;> rfl

theorem sameSymm (same : field.Same a b) : field.Same b a := by
  cases field <;> exact Eq.symm same

theorem sameTrans (first : field.Same a b) (second : field.Same b c) : field.Same a c := by
  cases field <;> exact Eq.trans first second

theorem memberPatches (done : patchedIdentity D existing values current = some patched) :
    D.externalId.apply existing.externalId values.externalId current.externalId = some patched.externalId ∧
      Patching.optional.apply existing.userName values.userName current.userName = some patched.userName ∧
      Patching.optional.apply existing.displayName values.displayName current.displayName = some patched.displayName ∧
      Patching.optional.apply existing.active values.active current.active = some patched.active ∧
      D.emails.apply existing.emails values.emails current.emails = some patched.emails ∧
      D.sourceGroups.apply existing.sourceGroups values.sourceGroups current.sourceGroups = some patched.sourceGroups ∧
      D.groups.apply existing.groups values.groups current.groups = some patched.groups ∧
      Patching.whole.apply existing.createdAt values.createdAt current.createdAt = some patched.createdAt := by
  simp only [patchedIdentity,Option.bind_eq_bind,Option.bind_eq_some_iff] at done
  obtain ⟨_,_,_,externalId,_,userName,_,displayName,_,active,_,emails,_,sourceGroups,_,groups,_,createdAt,_,_,last⟩ := done
  cases Option.some.inj last
  exact ⟨externalId,userName,displayName,active,emails,sourceGroups,groups,createdAt⟩

theorem unpatchedSame (done : patchedIdentity D existing values current = some patched) (same : field.Same existing values) :
    field.Same current patched := by
  obtain ⟨externalId,userName,displayName,active,emails,_,_,createdAt⟩ := memberPatches done
  cases field with
  | externalId => exact Patching.unchangedOf externalId same
  | userName => exact Patching.unchangedOf userName same
  | displayName => exact Patching.unchangedOf displayName same
  | active => exact Patching.unchangedOf active same
  | emails => exact Patching.unchangedOf emails same
  | createdAt => exact Patching.unchangedOf createdAt same

theorem unchangedGrant (done : patchedIdentity D existing values current = some patched) (same : SameGrant existing values) :
    SameGrant current patched := by
  obtain ⟨_,_,_,active,_,sourceGroups,groups,_⟩ := memberPatches done
  exact ⟨Patching.unchangedOf active same.active,Patching.unchangedOf sourceGroups same.sourceGroups,Patching.unchangedOf groups same.groups⟩

theorem exactGrant (done : patchedIdentity D existing values current = some patched) (same : SameGrant existing current) :
    SameGrant values patched := by
  obtain ⟨_,_,_,active,_,sourceGroups,groups,_⟩ := memberPatches done
  exact ⟨Patching.exactOf Patching.optionalExact active same.active,
    Patching.exactOf D.sourceGroupsExact sourceGroups same.sourceGroups,Patching.exactOf D.groupsExact groups same.groups⟩

theorem sameGranted (active : a.active = b.active) (sourceGroups : a.sourceGroups = b.sourceGroups) :
    (projectGroups connection a).groups = (projectGroups connection b).groups := by
  unfold projectGroups ScimIdentity.isActive
  rw [active,sourceGroups]

theorem derivedSame (same : SameGrant a b) (derived : Derived connection a) : Derived connection b :=
  (sameGranted same.active same.sourceGroups).symm.trans (derived.trans same.groups)

theorem derivedGrant (active : a.active = b.active) (sourceGroups : a.sourceGroups = b.sourceGroups)
    (first : Derived connection a) (second : Derived connection b) : SameGrant a b :=
  ⟨active,sourceGroups,first.symm.trans ((sameGranted active sourceGroups).trans second)⟩

theorem concursSymm (concurs : Concurs digest connection command kind name a b) : Concurs digest connection command kind name b a :=
  ⟨fun field other => sameSymm (concurs.fields field other),fun subject => (concurs.others subject).symm⟩

theorem concursTrans (first : Concurs digest connection command kind name a b)
    (second : Concurs digest connection command kind name b c) : Concurs digest connection command kind name a c :=
  ⟨fun field other => sameTrans (first.fields field other) (second.fields field other),
    fun subject => (first.others subject).trans (second.others subject)⟩

theorem sparesSelf : Spares digest connection command kind name a a :=
  ⟨fun field _ => sameSelf field a,fun _ _ _ => Iff.rfl,fun _ => id⟩

theorem otherMember {group : String} (other : some group ≠ command.group digest connection) :
    group ∈ a.sourceGroups ↔ group ∈ otherGroups digest connection command a := by
  simp [otherGroups,other]

theorem otherAll (none : command.group digest connection = none) : otherGroups digest connection command a = a.sourceGroups := by
  simp [otherGroups,none]

structure Recomputed (digest : String → String) (connection : ScimConnection) (command : ScimCommand) (kind : ScimKind)
    (name : String) (source values : ScimIdentity) : Prop where
  concurs : Concurs digest connection command kind name source values
  derived : kind = .subject → Derived connection values

theorem patchSpares (recomputed : Recomputed digest connection command kind name source values)
    (fresh : Concurs digest connection command kind name source existing)
    (granted : Regrants digest connection command kind name existing → SameGrant existing current)
    (done : patchedIdentity D existing values current = some patched) :
    Spares digest connection command kind name current patched := by
  have concurs := concursTrans (concursSymm fresh) recomputed.concurs
  have grants : kind = .subject → SameGrant existing current ∧ SameGrant values patched ∨
      command.group digest connection = none ∧ SameGrant current patched := by
    intro subject
    by_cases regrants : Regrants digest connection command kind name existing
    · exact .inl ⟨granted regrants,exactGrant done (granted regrants)⟩
    · simp only [Regrants,subject,true_and,not_or,not_not] at regrants
      obtain ⟨unaddressed,none,derived⟩ := regrants
      have others := concurs.others subject
      rw [otherAll none,otherAll none] at others
      have active : existing.active = values.active := concurs.fields .active (subject ▸ unaddressed)
      exact .inr ⟨none,unchangedGrant done (derivedGrant active others derived (recomputed.derived subject))⟩
  refine ⟨fun field other => unpatchedSame done (concurs.fields field other),fun subject group other => ?_,fun subject => ?_⟩
  · rcases grants subject with ⟨before,after⟩ | ⟨_,same⟩
    · rw [← before.sourceGroups,← after.sourceGroups,otherMember other,concurs.others subject,← otherMember other]
    · rw [same.sourceGroups]
  · rcases grants subject with ⟨_,after⟩ | ⟨_,same⟩
    · exact fun _ => derivedSame after (recomputed.derived subject)
    · exact derivedSame same

end Patches

structure Since (connection : ScimConnection) (n : Nat) (touched : ScimKind → String → Prop) (s t : ScimRace) : Prop where
  named : Named connection s.directory → Named connection t.directory
  held : ∀ kind name, (s.directory.held connection.uid kind name).isSome → (t.directory.held connection.uid kind name).isSome
  reads : ∀ kind name, ¬ touched kind name → t.reads n kind name = s.reads n kind name

def Others (connection : ScimConnection) (n : Nat) : ScimRace → ScimRace → Prop := Since connection n fun _ _ => False

structure Sparing (digest : String → String) (connection : ScimConnection) (commands : Nat → ScimCommand) (n : Nat)
    (s t : ScimRace) : Prop where
  named : Named connection s.directory → Named connection t.directory
  spared : ∀ kind name before, s.directory.held connection.uid kind name = some before → ∃ after,
    t.directory.held connection.uid kind name = some after ∧ Spares digest connection (commands n) kind name before after
  reads : ∀ m, m ≠ n → t.reads m = s.reads m

def racing (digest : String → String) (connection : ScimConnection) (commands : Nat → ScimCommand) (n : Nat) :
    Contract scim ScimRace :=
  ⟨Unraced digest connection commands n,Others connection n,Sparing digest connection commands n⟩

structure Seen (connection : ScimConnection) (n : Nat) (resource : ScimResource) (s : ScimRace) : Prop where
  held : (s.directory.held connection.uid resource.kind resource.accountId).isSome
  read : (s.reads n resource.kind resource.accountId).head? = some resource.identity

section Steps
variable {digest : String → String} {connection : ScimConnection} {commands : Nat → ScimCommand} {n m : Nat}
  {touched touched' : ScimKind → String → Prop} {s t u : ScimRace} {kind : ScimKind} {name : String}
  {before after : ScimIdentity} {resource : ScimResource}

theorem sinceTrans (first : Since connection n touched s t) (second : Since connection n touched t u) :
    Since connection n touched s u where
  named := second.named ∘ first.named
  held kind name := second.held kind name ∘ first.held kind name
  reads kind name other := (second.reads kind name other).trans (first.reads kind name other)

theorem sinceMono (since : Since connection n touched s t) (more : ∀ kind name, touched kind name → touched' kind name) :
    Since connection n touched' s t :=
  ⟨since.named,since.held,fun kind name other => since.reads kind name (other ∘ more kind name)⟩

theorem othersSince (others : Others connection n s t) : Since connection n touched s t := sinceMono others fun _ _ => False.elim

theorem othersSelf (s : ScimRace) : Others connection n s s := ⟨id,fun _ _ => id,fun _ _ _ => rfl⟩

theorem othersTrans (first : Others connection n s t) (second : Others connection n t u) : Others connection n s u :=
  sinceTrans first second

theorem othersReads (others : Others connection n s t) : t.reads n kind name = s.reads n kind name :=
  others.reads kind name id

theorem sparingSince (sparing : Sparing digest connection commands n s t)
    (reads : ∀ kind name, ¬ touched kind name → t.reads m kind name = s.reads m kind name) : Since connection m touched s t where
  named := sparing.named
  held kind name present := by
    obtain ⟨before,stored⟩ := Option.isSome_iff_exists.mp present
    obtain ⟨after,stored,_⟩ := sparing.spared kind name before stored
    simp [stored]
  reads := reads

theorem sparingOthers (apart : n ≠ m) (sparing : Sparing digest connection commands n s t) : Others connection m s t :=
  sparingSince sparing fun _ _ _ => by rw [sparing.reads m apart.symm]

theorem sameKind {kind' : ScimKind} (named : Named connection s.directory)
    (here : (s.directory.held connection.uid kind name).isSome) (there : (s.directory.held connection.uid kind' name).isSome) :
    kind = kind' := by
  cases kind <;> cases kind'
  · rfl
  · simp [namedApart named name here] at there
  · simp [namedApart named name there] at here
  · rfl

theorem readSparing (directory : t.directory = s.directory) (reads : ∀ m, m ≠ n → t.reads m = s.reads m) :
    Sparing digest connection commands n s t where
  named named := directory ▸ named
  spared _ _ before stored := ⟨before,directory ▸ stored,sparesSelf⟩
  reads := reads

theorem sparingSelf (s : ScimRace) : Sparing digest connection commands n s s := readSparing rfl fun _ _ => rfl

theorem notedReads {found : ScimKind → String → Option ScimIdentity} (other : m ≠ n) : (s.noted n found).reads m = s.reads m := by
  funext kind name
  simp [ScimRace.noted,other]

theorem notedSparing {found : ScimKind → String → Option ScimIdentity} : Sparing digest connection commands n s (s.noted n found) :=
  readSparing rfl fun _ other => notedReads other

theorem writtenSparing (stored : s.directory.held connection.uid kind name = some before)
    (spares : Spares digest connection (commands n) kind name before after)
    (directory : t.directory = s.directory.put kind name ⟨connection.uid,after⟩)
    (reads : ∀ m, m ≠ n → t.reads m = s.reads m) : Sparing digest connection commands n s t where
  named named := by
    rw [directory]
    exact namedPut named (namedHeld named (by simp [stored]))
  spared k other old there := by
    rw [directory,heldPut]
    by_cases same : k = kind ∧ name = other
    · obtain ⟨rfl,rfl⟩ := same
      cases Option.some.inj (stored.symm.trans there)
      exact ⟨after,by simp,spares⟩
    · exact ⟨old,by rw [if_neg same,there],sparesSelf⟩
  reads := reads

theorem createdSparing (fresh : s.directory.find kind name = none) (shape : Provisioned kind name) :
    Sparing digest connection commands n s (s.written kind name ⟨connection.uid,after⟩) where
  named named := namedPut named shape
  spared k other old there := by
    refine ⟨old,?_,sparesSelf⟩
    simp only [ScimRace.written,heldPut]
    rw [if_neg,there]
    rintro ⟨rfl,rfl⟩
    simp [ScimDirectory.held,fresh] at there
  reads _ _ := rfl

theorem seenSince (seen : Seen connection n resource s) (since : Since connection n touched s t)
    (untouched : ¬ touched resource.kind resource.accountId) : Seen connection n resource t where
  held := since.held _ _ seen.held
  read := by
    rw [since.reads _ _ untouched]
    exact seen.read

theorem seenOthers (seen : Seen connection n resource s) (others : Others connection n s t) : Seen connection n resource t :=
  seenSince seen others id

end Steps

section Rules
variable {α β : Type} {D : ScimDeltas} {digest : String → String} {connection : ScimConnection}
  {commands : Nat → ScimCommand} {n : Nat} {s t : ScimRace}

def Races (D : ScimDeltas) (digest : String → String) (connection : ScimConnection) (commands : Nat → ScimCommand) (n : Nat)
    (p : Scim α) (P : α → ScimRace → Prop) (s : ScimRace) : Prop :=
  Sound (answerRace D n) (racing digest connection commands n) p (fun r t => ∀ a, r = .ok a → P a t) s

variable {P : α → ScimRace → Prop} {R : β → ScimRace → Prop}

theorem racesPure {a : α} (ends : ∀ t, Others connection n s t → P a t) : Races D digest connection commands n (.pure a) P s :=
  fun t moved _ same => Except.ok.inj same ▸ ends t moved

theorem racesThrow {e : ScimFailure} : Races D digest connection commands n (.throw e : Scim α) P s :=
  fun t moved a same => by cases same

theorem racesLater {p : Scim α} (races : Races D digest connection commands n p P s) (moved : Others connection n s t) :
    Races D digest connection commands n p P t := soundLater othersTrans races moved

theorem racesMono {Q : α → ScimRace → Prop} {p : Scim α} (races : Races D digest connection commands n p P s)
    (weaker : ∀ a t, P a t → Q a t) : Races D digest connection commands n p Q s :=
  soundMono races fun _ t ends a same => weaker a t (ends a same)

theorem racesBind {p : Scim α} {f : α → Scim β}
    (first : Races D digest connection commands n p (fun a t => Races D digest connection commands n (f a) R t) s) :
    Races D digest connection commands n (p >>= f) R s := by
  apply soundBind othersSelf
  refine soundMono first fun r t rest => ?_
  cases r with
  | ok a => exact rest a rfl
  | error e => exact fun a same => by cases same

theorem racesAsk {c : ScimCall} {f : ScimAnswer c → Scim α}
    (each : ∀ t, Others connection n s t → Unraced digest connection commands n t c →
      Sparing digest connection commands n t (answerRace D n () c t).2 ∧
        Races D digest connection commands n (f (answerRace D n () c t).1) P (answerRace D n () c t).2) :
    Races D digest connection commands n (ask (I := scim) c >>= f) P s := fun t moved ok _ => each t moved ok

theorem racesIf {c : Prop} [Decidable c] {p q : Scim α} (yes : c → Races D digest connection commands n p P s)
    (no : ¬ c → Races D digest connection commands n q P s) : Races D digest connection commands n (if c then p else q) P s := by
  split
  · exact yes (by assumption)
  · exact no (by assumption)

theorem racesLift {outcome : Except ScimFailure α} {f : α → Scim β}
    (each : ∀ a, outcome = .ok a → Races D digest connection commands n (f a) R s) :
    Races D digest connection commands n (liftScim outcome >>= f) R s := by
  cases outcome with
  | ok a => exact each a rfl
  | error e => exact racesThrow

theorem racesNow {f : String → Scim α} (each : ∀ time, Races D digest connection commands n (f time) P s) :
    Races D digest connection commands n (now >>= f) P s :=
  racesAsk fun t moved _ => ⟨sparingSelf t,racesLater (each _) moved⟩

end Rules

section Repository
variable {α : Type} {D : ScimDeltas} {digest : String → String} {connection : ScimConnection}
  {commands : Nat → ScimCommand} {n : Nat} {s : ScimRace} {kind : ScimKind} {id : String} {P : α → ScimRace → Prop}

theorem getRaces {f : Option ScimResource → Scim α} (each : ∀ found t,
      Since connection n (fun k other => k = kind ∧ other = id) s t →
      (∀ own, found.filter (·.connectionUid = connection.uid) = some own → own.accountId = id ∧ own.kind = kind ∧
        Seen connection n own t ∧ t.reads n kind id = own.identity :: s.reads n kind id) →
      Races D digest connection commands n (f found) P t) :
    Races D digest connection commands n (ask (I := scim) (.get kind id) >>= f) P s := by
  apply racesAsk
  intro t moved _
  have failed : Races D digest connection commands n (f none) P t :=
    each none t (othersSince moved) fun own never => by simp at never
  cases outcome : t.outcome with
  | refused =>
      simp only [answerRace,outcome]
      exact ⟨sparingSelf t,failed⟩
  | unanswered =>
      simp only [answerRace,outcome]
      exact ⟨sparingSelf t,failed⟩
  | applied =>
      simp only [answerRace,outcome]
      refine ⟨notedSparing,each _ _ ?_ fun own found => ?_⟩
      · exact sinceTrans (othersSince moved) ⟨fun named => named,fun _ _ held => held,
          fun k other untouched => by simp [ScimRace.gotten,ScimRace.noted,untouched]⟩
      · obtain ⟨identity,stored,rfl⟩ := ownResource.mp found
        have reads : (t.gotten n kind id).reads n kind id = identity :: s.reads n kind id := by
          simp [ScimRace.gotten,ScimRace.noted,ScimRace.shown,heldRecord.mp stored,othersReads moved]
        exact ⟨rfl,rfl,⟨by simp [ScimRace.gotten,ScimRace.noted,stored],by rw [reads]; rfl⟩,reads⟩

theorem directoryFindRaces {P : Option ScimResource → ScimRace → Prop} (each : ∀ found t,
      Since connection n (fun _ other => other = id) s t →
      (∀ own, found = some own → own.accountId = id ∧ Seen connection n own t ∧
        t.reads n own.kind id = own.identity :: s.reads n own.kind id) → P found t) :
    Races D digest connection commands n (ScimDirectoryService.findUser connection id) P s := by
  unfold ScimDirectoryService.findUser
  apply getRaces
  intro subject t since own
  have since : Since connection n (fun _ other => other = id) s t ∧ t.reads n .group id = s.reads n .group id :=
    ⟨sinceMono since fun _ _ touched => touched.2,since.reads .group id fun touched => by cases touched.1⟩
  cases found : subject.filter (·.connectionUid = connection.uid) with
  | some resource =>
      obtain ⟨named,kind,seen,reads⟩ := own resource found
      refine racesPure fun u moved => each _ u (sinceTrans since.1 (othersSince moved)) fun _ same => ?_
      cases Option.some.inj same
      rw [othersReads moved,kind]
      exact ⟨named,seenOthers seen moved,reads⟩
  | none =>
      apply getRaces
      intro group u later own
      refine racesPure fun v moved => each _ v ?_ fun resource found => ?_
      · exact sinceTrans since.1 (sinceTrans (sinceMono later fun _ _ touched => touched.2) (othersSince moved))
      · obtain ⟨named,kind,seen,reads⟩ := own resource found
        rw [othersReads moved,kind,← since.2]
        exact ⟨named,seenOthers seen moved,reads⟩

theorem listRaces {P : List ScimResource → ScimRace → Prop} (each : ∀ resources t,
      Since connection n (fun k _ => k = .subject ∧ kind = .subject) s t → (resources.map (·.accountId)).Nodup →
      (∀ own ∈ resources, own.kind = kind ∧ (kind = .subject → Seen connection n own t)) → P resources t) :
    Races D digest connection commands n (ScimDirectoryService.listKind connection kind) P s := by
  unfold ScimDirectoryService.listKind
  apply racesAsk
  intro t moved _
  have failed : Races D digest connection commands n
      (.pure (((none : Option (List ScimResource)).getD []).filter (·.connectionUid = connection.uid))) P t :=
    racesPure fun u further => each _ u (othersSince (othersTrans moved further)) List.nodup_nil
      fun own never => absurd never List.not_mem_nil
  cases outcome : t.outcome with
  | refused =>
      simp only [answerRace,outcome]
      exact ⟨sparingSelf t,failed⟩
  | unanswered =>
      simp only [answerRace,outcome]
      exact ⟨sparingSelf t,failed⟩
  | applied =>
      simp only [answerRace,outcome]
      have sparing : Sparing digest connection commands n t (t.listed n kind) := by
        cases kind with
        | subject => exact notedSparing
        | group => exact sparingSelf t
      have since : Since connection n (fun k _ => k = .subject ∧ kind = .subject) t (t.listed n kind) := by
        cases kind with
        | subject => exact ⟨fun named => named,fun _ _ held => held,
            fun k other untouched => by
              have other : k ≠ .subject := fun same => untouched ⟨same,rfl⟩
              simp [ScimRace.listed,ScimRace.noted,other]⟩
        | group => exact othersSince (othersSelf t)
      refine ⟨sparing,racesPure fun u further => each _ u
        (sinceTrans (sinceTrans (othersSince moved) since) (othersSince further)) listedNames fun own inside => ?_⟩
      obtain ⟨itsKind,_,stored⟩ := listedResource.mp inside
      refine ⟨itsKind,fun subject => seenOthers ?_ further⟩
      subst subject
      have read : (t.listed n .subject).reads n own.kind own.accountId =
          own.identity :: t.reads n own.kind own.accountId := by
        simp [ScimRace.listed,ScimRace.noted,ScimRace.shown,itsKind,heldRecord.mp stored]
      exact ⟨by rw [itsKind,ScimRace.listed,ScimRace.noted,stored]; rfl,by rw [read]; rfl⟩

theorem onChangeRaces {resource : ScimResource} {f : Unit → Scim α}
    (rest : ∀ t, Others connection n s t → Races D digest connection commands n (f ()) P t) :
    Races D digest connection commands n (ScimDirectoryService.onChange resource >>= f) P s := by
  unfold ScimDirectoryService.onChange
  rw [bindAssoc]
  apply racesAsk
  intro t moved _
  refine ⟨sparingSelf t,?_⟩
  split
  · exact rest t moved
  · exact racesThrow

theorem createRaces {P : Option ScimResource → ScimRace → Prop} {identity : ScimIdentity} (shape : Provisioned kind id)
    (each : ∀ created t, Since connection n (fun _ _ => False) s t →
      (∀ resource, created = some resource → resource.accountId = id ∧ resource.kind = kind) → P created t) :
    Races D digest connection commands n (ScimDirectoryService.createProvisionedUser connection id kind identity) P s := by
  unfold ScimDirectoryService.createProvisionedUser
  apply racesAsk
  intro t moved _
  have failed {t : ScimRace} (moved : Others connection n s t) :
      Races D digest connection commands n (.pure none) P t :=
    racesPure fun u further => each _ u (othersTrans moved further) fun _ never => by cases never
  have created (fresh : t.directory.find kind id = none) :
      Sparing digest connection commands n t (t.written kind id ⟨connection.uid,identity⟩) ∧
        Others connection n s (t.written kind id ⟨connection.uid,identity⟩) := by
    have sparing : Sparing digest connection commands n t (t.written kind id ⟨connection.uid,identity⟩) :=
      createdSparing fresh shape
    exact ⟨sparing,othersTrans moved (sparingSince sparing fun _ _ _ => rfl)⟩
  simp only [answerRace]
  cases found : t.directory.find kind id with
  | some record =>
      cases t.outcome <;> exact ⟨sparingSelf t,failed moved⟩
  | none =>
      obtain ⟨sparing,since⟩ := created found
      cases t.outcome with
      | refused => exact ⟨sparingSelf t,failed moved⟩
      | unanswered => exact ⟨sparing,failed since⟩
      | applied =>
          refine ⟨sparing,onChangeRaces fun u further => racesPure fun v last => ?_⟩
          refine each _ v (othersTrans (othersTrans since further) last) fun resource same => ?_
          cases Option.some.inj same
          exact ⟨rfl,rfl⟩

theorem patchRaces {f : Option ScimResource → Scim α} {source existing identity : ScimIdentity} {rest : List ScimIdentity}
    (held : (s.directory.held connection.uid kind id).isSome) (reads : s.reads n kind id = existing :: source :: rest)
    (recomputed : Recomputed digest connection (commands n) kind id source identity)
    (each : ∀ updated t, Since connection n (fun _ other => other = id) s t →
      (∀ own, updated = some own → own.accountId = id ∧ own.kind = kind ∧ Seen connection n own t) →
      Races D digest connection commands n (f updated) P t) :
    Races D digest connection commands n (ask (I := scim) (.patch kind id identity) >>= f) P s := by
  apply racesAsk
  intro t moved unraced
  obtain ⟨current,stored⟩ := Option.isSome_iff_exists.mp (moved.held _ _ held)
  have record := heldRecord.mp stored
  have reads := (othersReads moved).trans reads
  have failed : Races D digest connection commands n (f none) P t :=
    each none t (othersSince moved) fun own never => by cases never
  have spares (accepted : t.outcome ≠ .refused) {patched : ScimIdentity}
      (done : patchedIdentity D existing identity current = some patched) :
      Spares digest connection (commands n) kind id current patched := by
    obtain ⟨fresh,granted⟩ := unraced.resolve_left accepted existing source rest reads
    exact patchSpares recomputed fresh (fun regrants => granted regrants current (by simp [ScimRace.shown,record])) done
  have unread (kind' : ScimKind) (name : String) {record : ScimRecord} (other : ¬ name = id) :
      ((t.written kind id record).gotten n kind id).reads n kind' name = t.reads n kind' name := by
    simp [ScimRace.written,ScimRace.gotten,ScimRace.noted,other]
  simp only [answerRace,record,reads]
  cases outcome : t.outcome with
  | refused => exact ⟨sparingSelf t,failed⟩
  | unanswered =>
      cases done : patchedIdentity D existing identity current with
      | none => exact ⟨sparingSelf t,failed⟩
      | some patched =>
          have sparing := @writtenSparing _ _ _ _ _ (t.written kind id ⟨connection.uid,patched⟩) _ _ _ _ stored
            (spares (by simp [outcome]) done) rfl fun _ _ => rfl
          refine ⟨sparing,each none _ ?_ fun own never => by cases never⟩
          exact sinceTrans (othersSince moved) (sparingSince sparing fun _ _ _ => rfl)
  | applied =>
      cases done : patchedIdentity D existing identity current with
      | none => exact ⟨sparingSelf t,failed⟩
      | some patched =>
          have sparing := @writtenSparing _ _ _ _ _ ((t.written kind id ⟨connection.uid,patched⟩).gotten n kind id) _ _ _ _
            stored (spares (by simp [outcome]) done) rfl fun _ other => notedReads other
          refine ⟨sparing,each _ _ ?_ fun own same => ?_⟩
          · exact sinceTrans (othersSince moved) (sparingSince sparing fun kind' name other => unread kind' name other)
          · have there : (t.written kind id ⟨connection.uid,patched⟩).directory.find kind id = some ⟨connection.uid,patched⟩ := by
              simp [ScimRace.written]
            simp only [ScimDirectory.resource,there,Option.map_some,Option.some.injEq] at same
            subst same
            refine ⟨rfl,rfl,by simp [ScimRace.written,ScimRace.gotten,ScimRace.noted,ScimDirectory.mapped],?_⟩
            simp [ScimRace.gotten,ScimRace.noted,ScimRace.shown,ScimDirectory.mapped,there]

theorem updateRaces {P : ScimResource → ScimRace → Prop} {source : ScimResource} {identity : ScimIdentity}
    (named : Named connection s.directory) (seen : Seen connection n source s)
    (recomputed : Recomputed digest connection (commands n) source.kind source.accountId source.identity identity)
    (each : ∀ updated t, Since connection n (fun _ other => other = source.accountId) s t →
      updated.accountId = source.accountId → updated.kind = source.kind → Seen connection n updated t → P updated t) :
    Races D digest connection commands n (ScimDirectoryService.updateUserSpecs connection source.accountId identity) P s := by
  unfold ScimDirectoryService.updateUserSpecs
  apply racesBind
  apply directoryFindRaces
  intro found t since own
  cases found with
  | none => exact racesThrow
  | some resource =>
      obtain ⟨same,here,reads⟩ := own resource rfl
      have kinds : resource.kind = source.kind := sameKind (since.named named) (same ▸ here.held) (since.held _ _ seen.held)
      obtain ⟨rest,read⟩ : ∃ rest, s.reads n source.kind source.accountId = source.identity :: rest :=
        List.head?_eq_some_iff.mp seen.read
      rw [kinds,read] at reads
      dsimp only
      rw [kinds]
      apply patchRaces (since.held _ _ seen.held) reads recomputed
      intro updated u later found
      cases updated with
      | none => exact racesThrow
      | some own =>
          obtain ⟨named,kind,seen⟩ := found own rfl
          apply onChangeRaces
          intro v moved
          refine racesPure fun w further => ?_
          have moved := othersTrans moved further
          exact each own w (sinceTrans (sinceTrans since later) (othersSince moved)) named kind (seenOthers seen moved)

end Repository

section Edits
variable {digest : String → String} {connection : ScimConnection} {command : ScimCommand} {name id group : String}
  {field : ScimField} {identity edited : ScimIdentity}

theorem unnamedMember {value : Object} (key : String) (listed : (key,field) ∈ [("userName",ScimField.userName),
    ("displayName",.displayName),("externalId",.externalId),("active",.active),("emails",.emails)])
    (other : field ∉ valueFields value) : value.get key = none := by
  refine Option.not_isSome_iff_eq_none.mp fun present => other ?_
  obtain ⟨member,found⟩ := Option.isSome_iff_exists.mp present
  exact List.mem_filterMap.mpr ⟨(key,field),listed,by simp [found]⟩

theorem valuesSame {value : Object} (other : field ∉ valueFields value) :
    field.Same identity (patchableUserValues value identity) := by
  cases field with
  | externalId => simp [ScimField.Same,patchableUserValues,unnamedMember "externalId" (by simp) other]
  | userName => simp [ScimField.Same,patchableUserValues,unnamedMember "userName" (by simp) other]
  | displayName => simp [ScimField.Same,patchableUserValues,unnamedMember "displayName" (by simp) other]
  | active => simp [ScimField.Same,patchableUserValues,unnamedMember "active" (by simp) other]
  | emails => simp [ScimField.Same,patchableUserValues,unnamedMember "emails" (by simp) other]
  | createdAt => rfl

theorem pathSame {operation : Object} {op : String} {path : Option String}
    (patched : patchUserPath operation op path identity = .ok edited) (other : path.bind pathField ≠ some field) :
    field.Same identity edited := by
  unfold patchUserPath at patched
  simp only at patched
  split at patched
  · cases patched
    have other : some ScimField.active ≠ some field := other
    cases field <;> first | rfl | exact absurd rfl other
  · split at patched
    · cases patched
    · cases patched
      have other : some ScimField.userName ≠ some field := other
      cases field <;> first | rfl | exact absurd rfl other
  · cases patched
    have other : some ScimField.displayName ≠ some field := other
    cases field <;> first | rfl | exact absurd rfl other
  · cases patched
    have other : some ScimField.externalId ≠ some field := other
    cases field <;> first | rfl | exact absurd rfl other
  · rename_i path inactive unnamed undisplayed internal
    split at patched
    · rename_i emails
      have names : (some path).bind pathField = some .emails := by
        simp only [Option.bind_some,pathField]
        rw [if_neg inactive,if_neg unnamed,if_neg undisplayed,if_neg internal,if_pos emails]
      have other : some ScimField.emails ≠ some field := names ▸ other
      split at patched
      · cases patched
        cases field <;> first | rfl | exact absurd rfl other
      · split at patched
        · cases patched
          cases field <;> first | rfl | exact absurd rfl other
        · split at patched
          · cases patched
            cases field <;> first | rfl | exact absurd rfl other
          · cases patched
    · cases patched
  · cases patched

theorem operationSame {operation : Json} (patched : patchUserOperation operation identity = .ok edited)
    (other : field ∉ operationFields operation) : field.Same identity edited := by
  unfold patchUserOperation at patched
  obtain ⟨fields,shown,patched⟩ := boundOk patched
  obtain ⟨op,_,patched⟩ := boundOk patched
  obtain ⟨path,read,patched⟩ := boundOk patched
  simp only [operationFields,shown,read] at other
  simp only at patched
  split at patched
  · rename_i value absent there
    rw [absent,there] at other
    cases patched
    exact valuesSame other
  · refine pathSame patched fun named => other ?_
    obtain ⟨text,lower,names⟩ := Option.bind_eq_some_iff.mp named
    have filled : text ≠ "" := by
      rintro rfl
      cases names
    simp [lower,Option.filter_some,filled,names]

theorem operationsSame {operations : List Json}
    (patched : operations.foldlM (fun identity operation => patchUserOperation operation identity) identity = .ok edited)
    (other : field ∉ operations.flatMap operationFields) : field.Same identity edited := by
  induction operations generalizing identity with
  | nil =>
      cases patched
      exact sameSelf field _
  | cons operation rest ih =>
      rw [List.foldlM_cons] at patched
      obtain ⟨next,first,patched⟩ := boundOk patched
      simp only [List.flatMap_cons,List.mem_append,not_or] at other
      exact sameTrans (operationSame first other.1) (ih patched other.2)

theorem givenSame {fields : Object} {previous : Option Json} (other : ScimField.externalId ∉ givenExternalId (.object fields)) :
    (given (fields.get "externalId") <|> previous) = previous := by
  have none : given (Object.get fields "externalId") = none :=
    Option.not_isSome_iff_eq_none.mp fun present => other (by
      obtain ⟨value,found⟩ := Option.isSome_iff_exists.mp present
      simp [givenExternalId,found])
  rw [none]
  rfl

theorem requiredObject {key : String} {resource : Json} {fields : Object} {text : String}
    (parsed : required key resource = .ok (fields,text)) : resource = .object fields := by
  unfold required at parsed
  split at parsed
  · split at parsed
    · split at parsed
      · cases parsed
        rfl
      · cases parsed
    · cases parsed
  · cases parsed

theorem movedRecomputed {wants : Bool} (owns : command.group digest connection = some group)
    (moved : moved connection group wants identity = some edited) (time : String) :
    Recomputed digest connection command .subject name identity {edited with lastModified := time} := by
  unfold ScimService.moved at moved
  simp only at moved
  split at moved
  · cases Option.some.inj moved
    refine ⟨⟨fun field _ => by cases field <;> rfl,fun _ => ?_⟩,fun _ => rfl⟩
    simp [otherGroups,owns,projectGroups]
  · split at moved
    · cases Option.some.inj moved
      refine ⟨⟨fun field _ => by cases field <;> rfl,fun _ => ?_⟩,fun _ => rfl⟩
      simp only [otherGroups,owns,projectGroups,List.filter_filter]
      exact List.filter_congr fun other _ => by simp
    · cases moved

def replaced (fields : Object) (userName lastModified : String) (previous : ScimIdentity) : ScimIdentity := {
  resourceType := "User"
  externalId := given (fields.get "externalId") <|> previous.externalId
  userName := some userName
  displayName := if isTruthyOr (displayNameOf fields) then some (textOf (displayNameOf fields)) else none
  active := some (notFalse (fields.get "active"))
  emails := emailsFrom (fields.get "emails")
  sourceGroups := previous.sourceGroups
  createdAt := previous.createdAt
  lastModified := lastModified}

theorem replacedRecomputed (fields : Object) (userName lastModified : String) :
    Recomputed digest connection (.putUser id (.object fields)) .subject id identity
      (projectGroups connection (replaced fields userName lastModified identity)) := by
  refine ⟨⟨fun field other => ?_,fun _ => rfl⟩,fun _ => rfl⟩
  simp only [ScimCommand.fields,if_true,List.mem_append,not_or] at other
  cases field with
  | externalId => exact (givenSame other.2).symm
  | createdAt => rfl
  | _ => simp at other

theorem patchedRecomputed {operations : List Json}
    (addresses : ∀ field ∈ operations.flatMap operationFields, field ∈ command.fields digest connection .subject id)
    (patched : operations.foldlM (fun identity operation => patchUserOperation operation identity) identity = .ok edited)
    (time : String) : Recomputed digest connection command .subject id identity
      (projectGroups connection {edited with lastModified := time}) := by
  refine ⟨⟨fun field other => ?_,fun _ => ?_⟩,fun _ => rfl⟩
  · have same := operationsSame patched fun named => other (addresses field named)
    cases field <;> exact same
  · have same := patchedAll patched
    simp [otherGroups,projectGroups,same]

end Edits
section Programs
variable {D : ScimDeltas} {digest : String → String} {connection : ScimConnection} {commands : Nat → ScimCommand} {n : Nat}
  {s : ScimRace} {id : String}

def Subjectwise (kind : ScimKind) (name : String) : Prop := kind = .subject ∨ Provisioned .subject name

abbrev Runs {α : Type} (D : ScimDeltas) (digest : String → String) (connection : ScimConnection) (commands : Nat → ScimCommand)
    (n : Nat) (p : Scim α) (s : ScimRace) : Prop := Races D digest connection commands n p (fun _ _ => True) s

theorem findUserRaces {P : ScimResource → ScimRace → Prop} (each : ∀ account t,
      Since connection n (fun _ other => other = id) s t → account.accountId = id → account.kind = .subject →
      Seen connection n account t → P account t) :
    Races D digest connection commands n (ScimService.findUser connection id) P s := by
  apply racesBind
  apply directoryFindRaces
  intro found t since own
  cases shown : found.filter (·.kind ≠ .group) with
  | none => exact racesThrow
  | some account =>
      obtain ⟨rfl,user⟩ := Option.filter_eq_some_iff.mp shown
      obtain ⟨named,seen,_⟩ := own account rfl
      have kind : account.kind = .subject := by
        cases kind : account.kind with
        | subject => rfl
        | group => simp [kind] at user
      exact racesPure fun u moved => each account u (sinceTrans since (othersSince moved)) named kind (seenOthers seen moved)

theorem findGroupRaces {P : ScimResource → ScimRace → Prop} (each : ∀ account t,
      Since connection n (fun _ other => other = id) s t → account.accountId = id → account.kind = .group →
      Seen connection n account t → P account t) :
    Races D digest connection commands n (findGroup connection id) P s := by
  apply racesBind
  apply directoryFindRaces
  intro found t since own
  cases shown : found.filter (fun account => account.kind = .group && account.identity.isActive) with
  | none => exact racesThrow
  | some account =>
      obtain ⟨rfl,group⟩ := Option.filter_eq_some_iff.mp shown
      obtain ⟨named,seen,_⟩ := own account rfl
      simp only [Bool.and_eq_true,decide_eq_true_eq] at group
      exact racesPure fun u moved =>
        each account u (sinceTrans since (othersSince moved)) named group.1 (seenOthers seen moved)

theorem directoryRaces {P : List ScimResource → ScimRace → Prop} (each : ∀ subjects groups t,
      Since connection n (fun k _ => k = .subject) s t → (subjects.map (·.accountId)).Nodup →
      (∀ user ∈ subjects, user.kind = .subject ∧ Seen connection n user t) → (∀ group ∈ groups, group.kind = .group) →
      P (subjects ++ groups) t) :
    Races D digest connection commands n (ScimDirectoryService.listUsers connection) P s := by
  apply racesBind
  apply listRaces
  intro subjects t since unique seen
  apply racesBind
  apply listRaces
  intro groups u later _ listed
  refine racesPure fun v moved => each subjects groups v ?_ unique (fun user inside => ?_) fun group inside => (listed group inside).1
  · have later := sinceMono later fun _ _ touched => touched.1
    exact sinceTrans (sinceTrans (sinceMono since fun _ _ touched => touched.1) later) (othersSince moved)
  · obtain ⟨kind,seen⟩ := seen user inside
    exact ⟨kind,seenOthers (seenSince (seen rfl) later fun touched => by cases touched.2) moved⟩

theorem listUsersRaces {P : List ScimResource → ScimRace → Prop} (each : ∀ users t,
      Since connection n Subjectwise s t → (users.map (·.accountId)).Nodup →
      (∀ user ∈ users, user.kind = .subject ∧ Seen connection n user t) → P users t) :
    Races D digest connection commands n (ScimService.listUsers connection) P s := by
  apply racesBind
  apply directoryRaces
  intro subjects groups t since unique seen kinds
  have users : (subjects ++ groups).filter (·.kind ≠ .group) = subjects := by
    rw [List.filter_append,List.filter_eq_self.mpr fun user inside => by simp [(seen user inside).1],
      List.filter_eq_nil_iff.mpr fun group inside => by simp [kinds group inside],List.append_nil]
  rw [users]
  refine racesPure fun u moved => each subjects u ?_ unique fun user inside => ?_
  · exact sinceTrans (sinceMono since fun _ _ subject => .inl subject) (othersSince moved)
  · exact ⟨(seen user inside).1,seenOthers (seen user inside).2 moved⟩

theorem listGroupsRaces {P : List ScimResource → ScimRace → Prop} (each : ∀ groups t,
      Since connection n Subjectwise s t → P groups t) :
    Races D digest connection commands n (listGroups connection) P s := by
  apply racesBind
  apply directoryRaces
  intro subjects groups t since _ _ _
  exact racesPure fun u moved =>
    each _ u (sinceTrans (sinceMono since fun _ _ subject => .inl subject) (othersSince moved))

theorem groupResourceRaces (account : ScimResource) : Runs D digest connection commands n (groupResource connection account) s := by
  apply racesBind
  apply listUsersRaces
  intro users t _ _ _
  exact racesPure fun _ _ => trivial

theorem shownRaces : Runs D digest connection commands n (findGroup connection id >>= groupResource connection) s := by
  apply racesBind
  apply findGroupRaces
  intro account t _ _ _ _
  exact groupResourceRaces account

theorem knownMembersRaces {P : Unit → ScimRace → Prop} (fields : Object) (each : ∀ t, Since connection n Subjectwise s t → P () t) :
    Races D digest connection commands n (knownMembers connection fields) P s := by
  unfold knownMembers
  split
  · apply racesBind
    apply listUsersRaces
    intro users t since _ _
    apply racesLift
    intro unknown _
    cases unknown with
    | some unknown => exact racesThrow
    | none => exact racesPure fun u moved => each u (sinceTrans since (othersSince moved))
  · exact racesPure fun u moved => each u (othersSince moved)

section Members
variable {group : String} (owns : (commands n).group digest connection = some group)
include owns

theorem moveMembersRaces {P : Unit → ScimRace → Prop} (desired : List String) {users : List ScimResource}
    (named : Named connection s.directory) (unique : (users.map (·.accountId)).Nodup)
    (seen : ∀ user ∈ users, user.kind = .subject ∧ Seen connection n user s)
    (each : ∀ t, Since connection n Subjectwise s t → P () t) :
    Races D digest connection commands n (moveMembers connection group desired users) P s := by
  induction users generalizing s with
  | nil => exact racesPure fun t moved => each t (othersSince moved)
  | cons user rest ih =>
      obtain ⟨fresh,unique⟩ := List.nodup_cons.mp unique
      obtain ⟨subject,here⟩ := seen user List.mem_cons_self
      have others : ∀ other ∈ rest, other.kind = .subject ∧ Seen connection n other s :=
        fun other inside => seen other (List.mem_cons_of_mem _ inside)
      unfold moveMembers
      split
      · exact ih named unique others each
      · rename_i edited moves
        apply racesNow
        intro time
        apply racesBind
        apply updateRaces named here (subject ▸ movedRecomputed owns moves time)
        intro updated t since _ _ _
        have present : (s.directory.held connection.uid .subject user.accountId).isSome := subject ▸ here.held
        have within : Since connection n Subjectwise s t := sinceMono since fun _ _ same => .inr (same ▸ namedHeld named present)
        refine ih (since.named named) unique (fun other inside => ?_) fun u later => each u (sinceTrans within later)
        obtain ⟨kind,seen⟩ := others other inside
        exact ⟨kind,seenSince seen since fun same => fresh (List.mem_map.mpr ⟨other,inside,same⟩)⟩

theorem replaceMembersOfRaces {P : Unit → ScimRace → Prop} (desired : List String) {users : List ScimResource}
    (named : Named connection s.directory) (unique : (users.map (·.accountId)).Nodup)
    (seen : ∀ user ∈ users, user.kind = .subject ∧ Seen connection n user s)
    (each : ∀ t, Since connection n Subjectwise s t → P () t) :
    Races D digest connection commands n (replaceMembersOf connection group desired users) P s := by
  unfold replaceMembersOf
  split
  · exact racesThrow
  · exact moveMembersRaces owns desired named unique seen each

variable {account : ScimResource} (itself : account.accountId = group) (named : Named connection s.directory)
  {P : Unit → ScimRace → Prop} (each : ∀ t, Since connection n Subjectwise s t → P () t)
include itself named each

theorem replaceMembersRaces (listed : Json) :
    Races D digest connection commands n (replaceMembers connection account listed) P s := by
  subst itself
  apply racesLift
  intro desired _
  apply racesBind
  apply listUsersRaces
  intro users t since unique seen
  exact replaceMembersOfRaces owns desired (since.named named) unique seen fun u later => each u (sinceTrans since later)

theorem addMembersRaces (added : Json) : Races D digest connection commands n (addMembers connection account added) P s := by
  subst itself
  apply racesBind
  apply listUsersRaces
  intro users t since unique seen
  apply racesLift
  intro added _
  exact replaceMembersOfRaces owns _ (since.named named) unique seen fun u later => each u (sinceTrans since later)

theorem removeMembersRaces (ids : List String) :
    Races D digest connection commands n (removeMembers connection account ids) P s := by
  subst itself
  apply racesBind
  apply listUsersRaces
  intro users t since unique seen
  exact replaceMembersOfRaces owns _ (since.named named) unique seen fun u later => each u (sinceTrans since later)

theorem patchMembersRaces (op : String) (value : Json) :
    Races D digest connection commands n (patchMembers connection account op value) P s :=
  racesIf (fun _ => replaceMembersRaces owns itself named each _) fun _ =>
    racesIf (fun _ => addMembersRaces owns itself named each _) fun _ => replaceMembersRaces owns itself named each _

end Members

theorem seenGroup {account : ScimResource} {t : ScimRace} (named : Named connection s.directory) (kind : account.kind = .group)
    (seen : Seen connection n account s) (since : Since connection n Subjectwise s t) : Seen connection n account t := by
  refine seenSince seen since ?_
  rintro (subject | ⟨rest,same⟩)
  · cases kind.symm.trans subject
  · obtain ⟨other,shape⟩ := named.groups account.accountId (kind ▸ seen.held)
    have texts := congrArg String.toList (same.symm.trans shape)
    simp at texts

theorem createUserRaces (resource : Json) : Runs D digest connection commands n (createUser digest connection resource) s := by
  unfold createUser
  apply racesLift
  intro parsed _
  apply racesBind
  apply listUsersRaces
  intro users t _ _ _
  refine racesIf (fun _ => racesThrow) fun _ => racesNow fun createdAt => ?_
  unfold userIdentity
  refine racesNow fun lastModified => racesBind (createRaces ⟨_,rfl⟩ fun created u _ _ => ?_)
  split
  · exact racesThrow
  · exact racesPure fun _ _ => trivial

theorem replaceUserRaces {resource : Json} (command : commands n = .putUser id resource) (named : Named connection s.directory) :
    Runs D digest connection commands n (replaceUser connection id resource) s := by
  unfold replaceUser
  apply racesBind
  apply findUserRaces
  intro account t since same kind seen
  subst same
  apply racesLift
  rintro ⟨fields,userName⟩ parsed
  obtain rfl := requiredObject parsed
  unfold userIdentity
  refine racesNow fun lastModified => ?_
  apply updateRaces (since.named named) seen
  · rw [command,kind]
    exact replacedRecomputed fields userName lastModified
  · exact fun _ _ _ _ _ _ => trivial

theorem patchUserRaces {operations : Option Json} (named : Named connection s.directory)
    (addresses : ∀ field ∈ (operationsOf operations).flatMap operationFields,
      field ∈ (commands n).fields digest connection .subject id) :
    Runs D digest connection commands n (ScimService.patchUser connection id operations) s := by
  unfold ScimService.patchUser
  apply racesBind
  apply findUserRaces
  intro account t since same kind seen
  subst same
  apply racesLift
  intro list iterates
  rw [operationsOf,iterates] at addresses
  apply racesLift
  intro edited patched
  refine racesNow fun lastModified => ?_
  apply updateRaces (since.named named) seen
  · rw [kind]
    exact patchedRecomputed addresses patched lastModified
  · exact fun _ _ _ _ _ _ => trivial

theorem createGroupRaces {resource : Json} (command : commands n = .postGroup resource) (named : Named connection s.directory) :
    Runs D digest connection commands n (createGroup digest connection resource) s := by
  unfold createGroup
  apply racesLift
  rintro ⟨fields,displayName⟩ parsed
  have itself : ScimCommand.groupName digest connection resource =
      some (resourceId digest "g" connection.uid (externalIdOf fields displayName)) := by
    simp [ScimCommand.groupName,parsed]
  have owns : (commands n).group digest connection =
      some (resourceId digest "g" connection.uid (externalIdOf fields displayName)) := by
    rw [command]
    exact itself
  apply racesBind
  apply knownMembersRaces
  intro t since
  apply racesBind
  apply listGroupsRaces
  intro groups u later
  refine racesIf (fun _ => racesThrow) fun _ => racesBind (directoryFindRaces fun found v further own => ?_)
  have named := further.named (later.named (since.named named))
  cases found with
  | some tombstoned =>
      obtain ⟨same,seen,_⟩ := own tombstoned rfl
      have kind : tombstoned.kind = .group := by
        cases kind : tombstoned.kind with
        | group => rfl
        | subject =>
            obtain ⟨rest,shape⟩ := named.subjects tombstoned.accountId (kind ▸ seen.held)
            exact absurd (same.symm.trans shape) (groupName _ _ _)
      refine racesNow fun lastModified => racesBind ?_
      have recomputed : Recomputed digest connection (commands n) tombstoned.kind tombstoned.accountId tombstoned.identity {
          resourceType := "Group", externalId := some (.string (externalIdOf fields displayName)),
          displayName := some displayName, createdAt := tombstoned.identity.createdAt, lastModified := lastModified} := by
        rw [command,kind,same]
        refine ⟨⟨fun field other => ?_,fun never => by cases never⟩,fun never => by cases never⟩
        simp only [ScimCommand.fields,itself,if_true] at other
        cases field with
        | createdAt => rfl
        | _ => simp at other
      rw [← same] at owns ⊢
      apply updateRaces named seen recomputed
      intro updated w last _ _ _
      exact racesBind (replaceMembersRaces owns rfl (last.named named) (fun _ _ => shownRaces) _)
  | none =>
      refine racesNow fun createdAt => racesBind (createRaces ⟨_,rfl⟩ fun created w last shown => ?_)
      cases created with
      | none => exact racesThrow
      | some account =>
          obtain ⟨same,_⟩ := shown account rfl
          refine racesIf (fun _ => shownRaces) fun _ => racesBind ?_
          exact replaceMembersRaces owns same (last.named named) (fun _ _ => shownRaces) _

theorem replaceGroupRaces {resource : Json} (command : commands n = .putGroup id resource) (named : Named connection s.directory) :
    Runs D digest connection commands n (replaceGroup connection id resource) s := by
  have owns : (commands n).group digest connection = some id := by
    rw [command]
    rfl
  unfold replaceGroup
  apply racesBind
  apply findGroupRaces
  intro account t since same kind seen
  subst same
  have named := since.named named
  apply racesLift
  rintro ⟨fields,displayName⟩ parsed
  obtain rfl := requiredObject parsed
  refine racesNow fun lastModified => racesBind ?_
  apply updateRaces named seen
  · rw [command,kind]
    refine ⟨⟨fun field other => ?_,fun never => by cases never⟩,fun never => by cases never⟩
    simp only [ScimCommand.fields,if_true,List.mem_cons,not_or] at other
    cases field with
    | externalId => exact (givenSame other.2).symm
    | displayName => exact absurd rfl other.1
    | _ => rfl
  · intro updated u later _ _ _
    exact racesBind (replaceMembersRaces owns rfl (later.named named) (fun _ _ => shownRaces) _)

theorem renameGroupRaces {P : ScimResource → ScimRace → Prop} {account : ScimResource} {displayName : String}
    (names : .displayName ∈ (commands n).fields digest connection .group account.accountId)
    (named : Named connection s.directory) (kind : account.kind = .group) (seen : Seen connection n account s)
    (each : ∀ updated t, (Named connection s.directory → Named connection t.directory) →
      updated.accountId = account.accountId → updated.kind = .group → Seen connection n updated t → P updated t) :
    Races D digest connection commands n (renameGroup connection account.accountId account displayName) P s := by
  refine racesNow fun lastModified => updateRaces named seen ?_ fun updated t since same itsKind seen =>
    each updated t since.named same (itsKind.trans kind) seen
  rw [kind]
  refine ⟨⟨fun field other => ?_,fun never => by cases never⟩,fun never => by cases never⟩
  cases field with
  | displayName => exact absurd names other
  | _ => rfl

section Patching
variable {P : ScimResource → ScimRace → Prop} {account : ScimResource} (same : account.accountId = id)
  (named : Named connection s.directory) (kind : account.kind = .group) (seen : Seen connection n account s)
  (each : ∀ updated t, (Named connection s.directory → Named connection t.directory) → updated.accountId = id →
    updated.kind = .group → Seen connection n updated t → P updated t)
include same named kind seen each

theorem membersMoved {p : Scim Unit} (moves : ∀ {R : Unit → ScimRace → Prop},
      (∀ t, Since connection n Subjectwise s t → R () t) → Races D digest connection commands n p R s) :
    Races D digest connection commands n (p >>= fun _ => .pure account) P s :=
  racesBind (moves fun t since => racesPure fun u moved => by
    have since := sinceTrans since (othersSince moved)
    exact each account u since.named same kind (seenGroup named kind seen since))

theorem patchGroupNameRaces {next : ScimResource → Scim ScimResource} (value : Object)
    (names : (value.get "displayName").isSome = true → .displayName ∈ (commands n).fields digest connection .group id)
    (onward : ∀ updated t, (Named connection s.directory → Named connection t.directory) →
      updated.accountId = account.accountId → updated.kind = .group → Seen connection n updated t →
      Races D digest connection commands n (next updated) P t) :
    Races D digest connection commands n (patchGroupName connection id account value >>= next) P s := by
  subst same
  unfold patchGroupName
  apply racesBind
  split
  · rename_i displayName found
    exact renameGroupRaces (names (by simp [found])) named kind seen onward
  · exact racesPure fun u moved => onward _ u moved.named rfl kind (seenOthers seen moved)

theorem patchGroupValueRaces (value : Object)
    (names : (value.get "displayName").isSome = true → .displayName ∈ (commands n).fields digest connection .group id)
    (moves : (value.get "members").isSome = true → (commands n).group digest connection = some id) :
    Races D digest connection commands n (patchGroupValue connection id account value) P s := by
  subst same
  unfold patchGroupValue
  refine patchGroupNameRaces rfl named kind seen each value names fun updated t later same kind seen => ?_
  have each : ∀ other u, (Named connection t.directory → Named connection u.directory) →
      other.accountId = account.accountId → other.kind = .group → Seen connection n other u → P other u :=
    fun other u named => each other u (named ∘ later)
  cases found : value.get "members" with
  | some listed => exact membersMoved same (later named) kind seen each fun rest =>
      replaceMembersRaces (moves (by simp [found])) same (later named) rest _
  | none => exact racesPure fun u moved => each updated u moved.named same kind (seenOthers seen moved)

theorem patchGroupPathRaces (operation : Object) (op : String) (path : Option String)
    (names : path.map String.toLower = some "displayname" → .displayName ∈ (commands n).fields digest connection .group id)
    (moves : path.map String.toLower = some "members" ∨ (path.bind memberFilter).isSome = true →
      (commands n).group digest connection = some id) :
    Races D digest connection commands n (patchGroupPath connection id account operation op path) P s := by
  subst same
  unfold patchGroupPath
  simp only
  split
  · rename_i lower
    exact racesIf (fun _ => racesThrow) fun _ =>
      renameGroupRaces (names lower) named kind seen fun updated t later same kind seen => each updated t later same kind seen
  · rename_i lower
    exact membersMoved rfl named kind seen each fun rest => patchMembersRaces (moves (.inl lower)) rfl named rest _ _
  · split
    · rename_i member found
      refine racesIf (fun _ => ?_) fun _ => racesThrow
      exact membersMoved rfl named kind seen each fun rest =>
        removeMembersRaces (moves (.inr (by simp [found]))) rfl named rest _
    · exact racesThrow

theorem patchGroupOperationRaces (operation : Json)
    (names : namesGroup operation = true → .displayName ∈ (commands n).fields digest connection .group id)
    (moves : movesMembers operation = true → (commands n).group digest connection = some id) :
    Races D digest connection commands n (patchGroupOperation connection id account operation) P s := by
  unfold patchGroupOperation
  apply racesLift
  intro fields shown
  simp only [namesGroup,movesMembers,shown] at names moves
  apply racesLift
  intro op _
  split
  · rename_i value pathless there
    rw [pathless,there] at names moves
    exact racesIf (fun _ => racesThrow) fun _ => patchGroupValueRaces same named kind seen each value names moves
  · rename_i pathed
    apply racesLift
    intro path read
    refine patchGroupPathRaces same named kind seen each fields op path (fun lower => names ?_) fun lower => moves ?_
    · split
      · exact absurd (by assumption) (pathed _ (by assumption))
      · simp [read,lower]
    · split
      · exact absurd (by assumption) (pathed _ (by assumption))
      · simpa [read] using lower

end Patching

theorem patchGroupOperationsRaces {account : ScimResource} (operations : List Json)
    (names : operations.any namesGroup = true → .displayName ∈ (commands n).fields digest connection .group id)
    (moves : operations.any movesMembers = true → (commands n).group digest connection = some id)
    (same : account.accountId = id) (named : Named connection s.directory) (kind : account.kind = .group)
    (seen : Seen connection n account s) :
    Runs D digest connection commands n (patchGroupOperations connection id account operations) s := by
  induction operations generalizing account s with
  | nil => exact racesPure fun _ _ => trivial
  | cons operation rest ih =>
      simp only [List.any_cons,Bool.or_eq_true] at names moves
      refine racesBind (patchGroupOperationRaces same named kind seen (fun updated t later same kind seen => ?_) operation
        (fun first => names (.inl first)) fun first => moves (.inl first))
      exact ih (fun later => names (.inr later)) (fun later => moves (.inr later)) same (later named) kind seen

theorem patchGroupRaces {operations : Option Json} (command : commands n = .patchGroup id operations)
    (named : Named connection s.directory) :
    Runs D digest connection commands n (ScimService.patchGroup connection id operations) s := by
  unfold ScimService.patchGroup
  apply racesBind
  apply findGroupRaces
  intro account t since same kind seen
  apply racesLift
  intro list iterates
  apply racesBind
  refine racesMono (patchGroupOperationsRaces list (fun names => ?_) (fun moves => ?_) same (since.named named) kind seen)
    fun _ _ _ => shownRaces
  · simp [command,ScimCommand.fields,operationsOf,iterates,names]
  · simp [command,ScimCommand.group,operationsOf,iterates,moves]

theorem deleteGroupRaces (command : commands n = .deleteGroup id) (named : Named connection s.directory) :
    Runs D digest connection commands n (ScimService.deleteGroup connection id) s := by
  have owns : (commands n).group digest connection = some id := by
    rw [command]
    rfl
  unfold ScimService.deleteGroup
  apply racesBind
  apply findGroupRaces
  intro account t since same kind seen
  subst same
  have named := since.named named
  refine racesBind (replaceMembersRaces owns rfl named (fun u later => racesNow fun lastModified => racesBind ?_) _)
  refine updateRaces (later.named named) (seenGroup named kind seen later) ?_ fun _ _ _ _ _ _ => racesPure fun _ _ => trivial
  rw [command,kind]
  refine ⟨⟨fun field other => ?_,fun never => by cases never⟩,fun never => by cases never⟩
  cases field with
  | active => simp [ScimCommand.fields] at other
  | _ => rfl

theorem runsMap {α β : Type} {p : Scim α} (f : α → β) (runs : Runs D digest connection commands n p s) :
    Runs D digest connection commands n (p >>= fun a => .pure (f a)) s :=
  racesBind (racesMono runs fun _ _ _ => racesPure fun _ _ => trivial)

theorem respondRaces (named : Named connection s.directory) :
    Runs D digest connection commands n ((commands n).respond digest connection) s := by
  cases command : commands n with
  | getUsers => exact runsMap _ (listUsersRaces fun _ _ _ _ _ => trivial)
  | getUser id => exact runsMap _ (findUserRaces fun _ _ _ _ _ _ => trivial)
  | postUser resource => exact runsMap _ (createUserRaces resource)
  | putUser id resource => exact runsMap _ (replaceUserRaces command named)
  | patchUser id operations =>
      refine runsMap _ (patchUserRaces named fun field addressed => ?_)
      simpa [command,ScimCommand.fields] using addressed
  | deleteUser id =>
      refine runsMap _ (patchUserRaces named fun field addressed => ?_)
      have only : (operationsOf (some (.array [.object [("op",.string "replace"),("path",.string "active"),
          ("value",.bool false)]]))).flatMap operationFields = [.active] := by decide +kernel
      rw [only] at addressed
      simpa [command,ScimCommand.fields] using addressed
  | getGroups =>
      refine racesBind (listGroupsRaces fun groups t _ => racesBind (listUsersRaces fun _ _ _ _ _ => ?_))
      exact racesPure fun _ _ => trivial
  | getGroup id => exact runsMap _ shownRaces
  | postGroup resource => exact runsMap _ (createGroupRaces command named)
  | putGroup id resource => exact runsMap _ (replaceGroupRaces command named)
  | patchGroup id operations => exact runsMap _ (patchGroupRaces command named)
  | deleteGroup id => exact runsMap _ (deleteGroupRaces command named)

end Programs
namespace RacePool
variable {D : ScimDeltas} {digest : String → String} {connection : ScimConnection} {commands : Nat → ScimCommand}
  {pool : RacePool} {move : RaceMove}

structure Keeping (D : ScimDeltas) (digest : String → String) (connection : ScimConnection) (commands : Nat → ScimCommand)
    (pool : RacePool) : Prop where
  steady : pool.Steady (answerRace D) scimAwaits (racing digest connection commands)
  named : Named connection pool.state.directory

def Harmless (D : ScimDeltas) (digest : String → String) (connection : ScimConnection) (commands : Nat → ScimCommand)
    (pool : RacePool) (move : RaceMove) : Prop := ∀ kind name before,
  pool.state.directory.held connection.uid kind name = some before → ∃ after,
    (step D digest connection commands pool move).state.directory.held connection.uid kind name = some after ∧
      match move with
      | .start => after = before
      | .proceed n _ _ => Spares digest connection (commands n) kind name before after

theorem allAwaited (c : ScimCall) : scimAwaits c = true := rfl

theorem keepingStep (keeping : Keeping D digest connection commands pool) (current : Current digest connection commands pool move) :
    Keeping D digest connection commands (step D digest connection commands pool move) ∧
      Harmless D digest connection commands pool move := by
  cases move with
  | start =>
      have sound : Runs D digest connection commands pool.threads.length
          ((commands pool.threads.length).thread digest connection) pool.state := runsMap _ (respondRaces keeping.named)
      have awaited (c : ScimCall) : scimAwaits c ≠ false := by simp [allAwaited]
      have keeps := soundKeeps (fun c instant => absurd instant (awaited c)) (sparingSelf pool.state) sound
      obtain ⟨steady,sparing⟩ := Pool.steadySpawn (fun _ _ _ _ => othersTrans) sparingOthers keeping.steady keeps
      refine ⟨⟨steady,sparing.named keeping.named⟩,fun kind name before stored => ⟨before,?_,rfl⟩⟩
      simp only [step,Pool.spawn]
      rw [settleAll _ allAwaited]
      exact stored
  | proceed n outcome time =>
      have faced : ∀ m, Others connection m pool.state (facing outcome time pool).state := fun m =>
        ⟨id,fun _ _ => id,fun _ _ _ => rfl⟩
      have steady : (facing outcome time pool).Steady (answerRace D) scimAwaits (racing digest connection commands) :=
        Pool.steadyEdit (fun _ _ _ _ => othersTrans) keeping.steady faced
      obtain ⟨steady,sparing⟩ := Pool.steadyProceed (fun _ _ _ _ => othersTrans) sparingOthers (w := ()) (othersSelf _)
        (sparingSelf _) steady current
      exact ⟨⟨steady,sparing.named keeping.named⟩,sparing.spared⟩

theorem keepingRun {moves : List RaceMove} (keeping : Keeping D digest connection commands pool)
    (current : EachStep (step D digest connection commands) (Current digest connection commands) moves pool) :
    EachStep (step D digest connection commands) (Harmless D digest connection commands) moves pool := by
  induction moves generalizing pool with
  | nil => trivial
  | cons move rest ih =>
      obtain ⟨kept,harmless⟩ := keepingStep keeping current.1
      exact ⟨harmless,ih kept current.2⟩

theorem beginKeeping {start : ScimDirectory} (named : Named connection start) :
    Keeping D digest connection commands (begin start) := ⟨Pool.steadyEmpty _,named⟩

structure Preserved (digest : String → String) (connection : ScimConnection) (commands : Nat → ScimCommand)
    (moves : List RaceMove) (kind : ScimKind) (name : String) (a b : ScimIdentity) : Prop where
  fields : ∀ field, (∀ n outcome time, .proceed n outcome time ∈ moves → field ∉ (commands n).fields digest connection kind name) →
    field.Same a b
  members : kind = .subject → ∀ group, (∀ n outcome time, .proceed n outcome time ∈ moves →
    some group ≠ (commands n).group digest connection) → (group ∈ a.sourceGroups ↔ group ∈ b.sourceGroups)
  derived : kind = .subject → Derived connection a → Derived connection b

theorem harmlessRun {moves : List RaceMove} (harmless : EachStep (step D digest connection commands)
    (Harmless D digest connection commands) moves pool) {kind : ScimKind} {name : String} {first : ScimIdentity}
    (stored : pool.state.directory.held connection.uid kind name = some first) : ∃ last,
    (run D digest connection commands moves pool).state.directory.held connection.uid kind name = some last ∧
      Preserved digest connection commands moves kind name first last := by
  induction moves generalizing pool first with
  | nil => exact ⟨first,stored,fun field _ => sameSelf field first,fun _ _ _ => Iff.rfl,fun _ => id⟩
  | cons move rest ih =>
      obtain ⟨next,there,spares⟩ := harmless.1 kind name first stored
      obtain ⟨last,ended,later⟩ := ih harmless.2 there
      refine ⟨last,ended,?_⟩
      cases move with
      | start =>
          have same : next = first := spares
          subst same
          exact ⟨fun field others => later.fields field fun n o t inside => others n o t (List.mem_cons_of_mem _ inside),
            fun subject group others => later.members subject group fun n o t inside =>
              others n o t (List.mem_cons_of_mem _ inside),later.derived⟩
      | proceed n outcome time =>
          have spares : Spares digest connection (commands n) kind name first next := spares
          refine ⟨fun field others => ?_,fun subject group others => ?_,fun subject => later.derived subject ∘ spares.derived subject⟩
          · exact sameTrans (spares.fields field (others n outcome time List.mem_cons_self))
              (later.fields field fun n o t inside => others n o t (List.mem_cons_of_mem _ inside))
          · exact (spares.members subject group (others n outcome time List.mem_cons_self)).trans
              (later.members subject group fun n o t inside => others n o t (List.mem_cons_of_mem _ inside))

end RacePool

/- In every run of requests whose patches are current, no step changes what the request that takes it does not address;
so whatever has been written is still there as long as the requests that go on do not address it. -/
theorem scimUpdatesKept (D : ScimDeltas) (digest : String → String) (connection : ScimConnection)
    (commands : Nat → ScimCommand) (start : ScimDirectory) (named : Named connection start) (moves : List RaceMove)
    (current : EachStep (RacePool.step D digest connection commands) (RacePool.Current digest connection commands) moves
      (RacePool.begin start)) :
    EachStep (RacePool.step D digest connection commands) (RacePool.Harmless D digest connection commands) moves
        (RacePool.begin start) ∧
      ∀ before after, moves = before ++ after → ∀ kind name first,
        (RacePool.run D digest connection commands before (RacePool.begin start)).state.directory.held connection.uid kind name =
          some first → ∃ last,
        (RacePool.run D digest connection commands moves (RacePool.begin start)).state.directory.held connection.uid kind name =
          some last ∧ RacePool.Preserved digest connection commands after kind name first last := by
  have harmless := RacePool.keepingRun (RacePool.beginKeeping named) current
  refine ⟨harmless,fun before after split kind name first stored => ?_⟩
  subst split
  have joined : RacePool.run D digest connection commands (before ++ after) (RacePool.begin start) =
      RacePool.run D digest connection commands after (RacePool.run D digest connection commands before (RacePool.begin start)) :=
    List.foldl_append
  rw [joined]
  exact RacePool.harmlessRun (eachStepAppend.mp harmless).2 stored

def wholeDeltas : ScimDeltas where
  externalId := ⟨fun existing values current => some (if existing.map Json.toText = values.map Json.toText then current else values),
    fun _ _ => by simp⟩
  emails := .whole
  sourceGroups := .whole
  groups := .whole
  sourceGroupsExact := Patching.wholeExact
  groupsExact := Patching.wholeExact

def joinBob : Json := .object [("op",.string "add"),("path",.string "members"),
  ("value",.array [.object [("value",.string "scim-u-bob")]])]

def bobCommands (n : Nat) : ScimCommand :=
  if n = 0 then .patchGroup "scim-g-staff" (some (.array [joinBob])) else .deleteUser "scim-u-bob"

def goesAhead (n : Nat) : RaceMove := .proceed n .applied "now"

def listedFirst : List RaceMove :=
  [.start,.start] ++ List.replicate 4 (goesAhead 0) ++ List.replicate 5 (goesAhead 1)

def joinsAfterwards : List RaceMove := List.replicate 8 (goesAhead 0)

def bobAfter (moves : List RaceMove) : Option ScimIdentity :=
  (RacePool.run wholeDeltas id mappedConnection bobCommands moves (RacePool.begin staffDirectory)).state.directory.held
    mappedConnection.uid .subject "scim-u-bob"

theorem bobOut : (bobAfter listedFirst).map (·.active) = some (some false) := by decide +kernel

theorem bobBack : (bobAfter (listedFirst ++ joinsAfterwards)).map (·.active) = some (some true) := by decide +kernel

/- Bob's deactivation is undone by the request on the group, which does not address it. -/
theorem deactivationUndone : ¬ ∀ (D : ScimDeltas) (digest : String → String) (connection : ScimConnection)
    (commands : Nat → ScimCommand) (start : ScimDirectory), Named connection start → ∀ before after kind name first,
    (RacePool.run D digest connection commands before (RacePool.begin start)).state.directory.held connection.uid kind name =
      some first → ∃ last,
    (RacePool.run D digest connection commands (before ++ after) (RacePool.begin start)).state.directory.held connection.uid
      kind name = some last ∧ RacePool.Preserved digest connection commands after kind name first last := by
  intro always
  obtain ⟨first,out,inactive⟩ := Option.map_eq_some_iff.mp bobOut
  obtain ⟨last,back,active⟩ := Option.map_eq_some_iff.mp bobBack
  obtain ⟨final,ended,preserved⟩ := always wholeDeltas id mappedConnection bobCommands staffDirectory staffNamed listedFirst
    joinsAfterwards .subject "scim-u-bob" first out
  cases Option.some.inj (back.symm.trans ended)
  have unaddressed : ∀ n outcome time, .proceed n outcome time ∈ joinsAfterwards →
      .active ∉ (bobCommands n).fields id mappedConnection .subject "scim-u-bob" := by
    intro n outcome time inside
    cases List.eq_of_mem_replicate inside
    exact List.not_mem_nil
  have same : first.active = last.active := preserved.fields .active unaddressed
  rw [inactive,active] at same
  cases same

def listsAfterwards : List RaceMove :=
  [.start,.start,goesAhead 0,goesAhead 0,goesAhead 1,goesAhead 1,goesAhead 1,goesAhead 1,goesAhead 1,
   goesAhead 0,goesAhead 0,goesAhead 0,goesAhead 0,goesAhead 0,goesAhead 0]

namespace RacePool

def patching (n : Nat) (pool : RacePool) : Option (ScimKind × String) := match pool.threads[n]? with
  | some (.call (.patch kind name _) _) => some (kind,name)
  | _ => none

variable {digest : String → String} {connection : ScimConnection} {commands : Nat → ScimCommand} {pool : RacePool} {n : Nat}
  {outcome : PatchOutcome} {time : String}

theorem currentFresh (fresh : ∀ kind name, patching n pool = some (kind,name) → ∀ existing source rest,
      pool.state.reads n kind name = existing :: source :: rest → Concurs digest connection (commands n) kind name source existing ∧
        ∀ current, pool.state.shown kind name = some current → SameGrant existing current) :
    Current digest connection commands pool (.proceed n outcome time) := by
  show Pool.Ready (Unraced digest connection commands) n (facing outcome time pool)
  unfold Pool.Ready
  split
  · rename_i c next found
    have found : pool.threads[n]? = some (.call c next) := found
    cases c with
    | patch kind name identity =>
        have fresh := fresh kind name (by simp [patching,found])
        exact .inr fun existing source rest reads => ⟨(fresh existing source rest reads).1,fun _ => (fresh existing source rest reads).2⟩
    | _ => trivial
  · trivial

theorem currentIdle (idle : patching n pool = none) : Current digest connection commands pool (.proceed n outcome time) :=
  currentFresh fun kind name calls => by
    rw [idle] at calls
    cases calls

end RacePool

def factsOf (identity : ScimIdentity) :=
  ((identity.externalId.isSome,identity.userName,identity.displayName,identity.active),
    identity.emails,identity.createdAt,identity.sourceGroups,identity.groups)

theorem factsSame {a b : ScimIdentity} (same : factsOf a = factsOf b) (untold : (factsOf b).1.1 = false) :
    (∀ field : ScimField, field.Same a b) ∧ SameGrant a b := by
  simp only [factsOf,Prod.mk.injEq] at same untold
  obtain ⟨⟨told,userName,displayName,active⟩,emails,createdAt,sourceGroups,groups⟩ := same
  have externalId : a.externalId = b.externalId := by
    rw [Option.isSome_eq_false_iff.mp untold |> Option.isNone_iff_eq_none.mp]
    exact Option.not_isSome_iff_eq_none.mp (by simp [told,untold])
  refine ⟨fun field => ?_,active,sourceGroups,groups⟩
  cases field <;> assumption

def readTwice (n : Nat) (pool : RacePool) : Bool :=
  match pool.state.reads n .subject "scim-u-bob", pool.state.shown .subject "scim-u-bob" with
  | [existing,source], some current =>
      factsOf existing = factsOf current && factsOf source = factsOf current && !(factsOf current).1.1
  | _, _ => false

theorem bobCurrent {n : Nat} {pool : RacePool} (calls : RacePool.patching n pool = some (.subject,"scim-u-bob"))
    (twice : readTwice n pool = true) : RacePool.Current id mappedConnection bobCommands pool (goesAhead n) := by
  refine RacePool.currentFresh fun kind name called existing source rest reads => ?_
  cases calls.symm.trans called
  unfold readTwice at twice
  split at twice
  · rename_i existing' source' current read shown
    cases read.symm.trans reads
    simp only [Bool.and_eq_true,decide_eq_true_eq,Bool.not_eq_true'] at twice
    obtain ⟨⟨first,second⟩,untold⟩ := twice
    obtain ⟨fields,grant⟩ := factsSame (second.trans first.symm) (first ▸ untold)
    refine ⟨⟨fun field _ => fields field,fun _ => by simp only [otherGroups,grant.sourceGroups]⟩,fun current' there => ?_⟩
    cases shown.symm.trans there
    exact (factsSame first untold).2
  · cases twice

theorem listedCurrent : EachStep (RacePool.step wholeDeltas id mappedConnection bobCommands)
    (RacePool.Current id mappedConnection bobCommands) listsAfterwards (RacePool.begin staffDirectory) := by
  have idle {pool : RacePool} {n : Nat} (idle : RacePool.patching n pool = none) :
      RacePool.Current id mappedConnection bobCommands pool (goesAhead n) := RacePool.currentIdle idle
  refine ⟨trivial,trivial,idle ?_,idle ?_,idle ?_,idle ?_,idle ?_,bobCurrent ?_ ?_,idle ?_,idle ?_,idle ?_,idle ?_,idle ?_,
    bobCurrent ?_ ?_,idle ?_,trivial⟩
  all_goals decide +kernel

theorem deactivationKept : ∃ first last, bobAfter (listsAfterwards.take 9) = some first ∧ first.active = some false ∧
    bobAfter listsAfterwards = some last ∧ last.active = some false ∧ last.sourceGroups = ["scim-g-staff"] := by
  have inactive : (bobAfter (listsAfterwards.take 9)).map (·.active) = some (some false) := by decide +kernel
  have member : (bobAfter listsAfterwards).map (·.sourceGroups) = some ["scim-g-staff"] := by decide +kernel
  obtain ⟨first,out,inactive⟩ := Option.map_eq_some_iff.mp inactive
  obtain ⟨last,there,preserved⟩ := (scimUpdatesKept wholeDeltas id mappedConnection bobCommands staffDirectory staffNamed
    listsAfterwards listedCurrent).2 (listsAfterwards.take 9) (listsAfterwards.drop 9) (List.take_append_drop 9 _).symm
    .subject "scim-u-bob" first out
  have unaddressed : ∀ n outcome time, .proceed n outcome time ∈ listsAfterwards.drop 9 →
      .active ∉ (bobCommands n).fields id mappedConnection .subject "scim-u-bob" := by
    intro n outcome time inside
    have rest : listsAfterwards.drop 9 = List.replicate 6 (goesAhead 0) := rfl
    rw [rest] at inside
    cases List.eq_of_mem_replicate inside
    exact List.not_mem_nil
  have same : first.active = last.active := preserved.fields .active unaddressed
  have there : bobAfter listsAfterwards = some last := there
  rw [there] at member
  exact ⟨first,last,out,inactive,there,same ▸ inactive,Option.some.inj member⟩

end Passmower
