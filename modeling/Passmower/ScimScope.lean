import Passmower.ScimService

/-! Every request of the SCIM service is made of the operations of its connection's repository: listing a
kind, finding, creating under a name of the connection, updating, and reading the clock. What holds of these
operations, one by one, holds of the requests. -/
namespace Passmower
open JavaScript Resumption Program

def ScimKind.letter : ScimKind → String
  | .subject => "u"
  | .group => "g"

def resourceName (digest : String → String) (kind : ScimKind) (uid externalId : String) : String :=
  ScimService.resourceId digest kind.letter uid externalId

inductive Scoped (digest : String → String) (connection : ScimConnection) : {α : Type} → Scim α → Prop where
  | pure {α : Type} (a : α) : Scoped digest connection (.pure a)
  | throw {α : Type} (e : ScimFailure) : Scoped digest connection (.throw e : Scim α)
  | bind {α β : Type} {p : Scim α} {f : α → Scim β} (first : Scoped digest connection p)
      (rest : ∀ a, Scoped digest connection (f a)) : Scoped digest connection (p >>= f)
  | now : Scoped digest connection ScimService.now
  | list (kind : ScimKind) : Scoped digest connection (ScimDirectoryService.listKind connection kind)
  | find (id : String) : Scoped digest connection (ScimDirectoryService.findUser connection id)
  | create (kind : ScimKind) (externalId : String) (identity : ScimIdentity) : Scoped digest connection
      (ScimDirectoryService.createProvisionedUser connection (resourceName digest kind connection.uid externalId)
        kind identity)
  | update (id : String) (identity : ScimIdentity) :
      Scoped digest connection (ScimDirectoryService.updateUserSpecs connection id identity)

namespace ScimService
variable {digest : String → String} {connection : ScimConnection} {id : String}

theorem scopedLift {α : Type} (outcome : Except ScimFailure α) : Scoped digest connection (liftScim outcome) := by
  cases outcome with
  | ok value => exact .pure value
  | error failure => exact .throw failure

theorem scopedIf {α : Type} {c : Prop} [Decidable c] {p q : Scim α} (yes : Scoped digest connection p)
    (no : Scoped digest connection q) : Scoped digest connection (if c then p else q) := by
  split
  · exact yes
  · exact no

theorem directoryScoped : Scoped digest connection (ScimDirectoryService.listUsers connection) :=
  .bind (.list .subject) fun _ => .bind (.list .group) fun _ => .pure _

theorem listUsersScoped : Scoped digest connection (listUsers connection) := .bind directoryScoped fun _ => .pure _

theorem listGroupsScoped : Scoped digest connection (listGroups connection) := .bind directoryScoped fun _ => .pure _

theorem findUserScoped : Scoped digest connection (findUser connection id) := by
  refine .bind (.find id) fun found => ?_
  split
  · exact .throw _
  · exact .pure _

theorem findGroupScoped : Scoped digest connection (findGroup connection id) := by
  refine .bind (.find id) fun found => ?_
  split
  · exact .throw _
  · exact .pure _

theorem userIdentityScoped (resource : Object) (userName : String) (externalId : Option Json) (createdAt : String)
    (sourceGroups : List String) :
    Scoped digest connection (userIdentity resource userName externalId createdAt sourceGroups) :=
  .bind .now fun _ => .pure _

theorem createUserScoped (resource : Json) : Scoped digest connection (createUser digest connection resource) := by
  refine .bind (scopedLift _) fun fields => .bind listUsersScoped fun users => ?_
  refine scopedIf (.throw _) (.bind .now fun createdAt => .bind (userIdentityScoped _ _ _ _ _) fun identity => ?_)
  refine .bind (.create .subject _ _) fun created => ?_
  split
  · exact .throw _
  · exact .pure _

theorem replaceUserScoped (resource : Json) : Scoped digest connection (replaceUser connection id resource) :=
  .bind findUserScoped fun _ => .bind (scopedLift _) fun _ => .bind (userIdentityScoped _ _ _ _ _) fun _ => .update _ _

theorem patchUserScoped (operations : Option Json) : Scoped digest connection (patchUser connection id operations) :=
  .bind findUserScoped fun _ => .bind (scopedLift _) fun _ => .bind (scopedLift _) fun _ => .bind .now fun _ => .update _ _

theorem moveMembersScoped (group : String) (desired : List String) (users : List ScimResource) :
    Scoped digest connection (moveMembers connection group desired users) := by
  induction users with
  | nil => exact .pure ()
  | cons user rest ih =>
      unfold moveMembers
      split
      · exact ih
      · exact .bind .now fun _ => .bind (.update _ _) fun _ => ih

theorem replaceMembersOfScoped (group : String) (desired : List String) (users : List ScimResource) :
    Scoped digest connection (replaceMembersOf connection group desired users) := by
  unfold replaceMembersOf
  split
  · exact .throw _
  · exact moveMembersScoped group desired users

theorem replaceMembersScoped (group : ScimResource) (members : Json) :
    Scoped digest connection (replaceMembers connection group members) :=
  .bind (scopedLift _) fun _ => .bind listUsersScoped fun _ => replaceMembersOfScoped _ _ _

theorem addMembersScoped (group : ScimResource) (added : Json) :
    Scoped digest connection (addMembers connection group added) :=
  .bind listUsersScoped fun _ => .bind (scopedLift _) fun _ => replaceMembersOfScoped _ _ _

theorem removeMembersScoped (group : ScimResource) (ids : List String) :
    Scoped digest connection (removeMembers connection group ids) :=
  .bind listUsersScoped fun _ => replaceMembersOfScoped _ _ _

theorem groupResourceScoped (account : ScimResource) : Scoped digest connection (groupResource connection account) :=
  .bind listUsersScoped fun _ => .pure _

theorem knownMembersScoped (resource : Object) : Scoped digest connection (knownMembers connection resource) := by
  unfold knownMembers
  split
  · refine .bind listUsersScoped fun users => .bind (scopedLift _) fun unknown => ?_
    split
    · exact .throw _
    · exact .pure _
  · exact .pure _

theorem shownScoped : Scoped digest connection (findGroup connection id >>= groupResource connection) :=
  .bind findGroupScoped groupResourceScoped

theorem createGroupScoped (resource : Json) : Scoped digest connection (createGroup digest connection resource) := by
  refine .bind (scopedLift _) fun fields => .bind (knownMembersScoped _) fun _ => .bind listGroupsScoped fun groups => ?_
  refine scopedIf (.throw _) (.bind (.find _) fun tombstoned => ?_)
  split
  · exact .bind .now fun _ => .bind (.update _ _) fun _ => .bind (replaceMembersScoped _ _) fun _ => shownScoped
  · refine .bind .now fun createdAt => .bind (.create .group _ _) fun created => ?_
    split
    · exact .throw _
    · dsimp only
      exact scopedIf (.bind (.pure ()) fun _ => shownScoped) (.bind (replaceMembersScoped _ _) fun _ => shownScoped)

theorem replaceGroupScoped (resource : Json) : Scoped digest connection (replaceGroup connection id resource) :=
  .bind findGroupScoped fun _ => .bind (scopedLift _) fun _ => .bind .now fun _ => .bind (.update _ _) fun _ =>
    .bind (replaceMembersScoped _ _) fun _ => shownScoped

theorem renameGroupScoped (account : ScimResource) (displayName : String) :
    Scoped digest connection (renameGroup connection id account displayName) := .bind .now fun _ => .update _ _

theorem patchGroupValueScoped (account : ScimResource) (value : Object) :
    Scoped digest connection (patchGroupValue connection id account value) := by
  have named : Scoped digest connection (patchGroupName connection id account value) := by
    unfold patchGroupName
    split
    · exact renameGroupScoped _ _
    · exact .pure _
  refine .bind named fun account => ?_
  split
  · exact .bind (replaceMembersScoped _ _) fun _ => .pure _
  · exact .pure _

theorem patchMembersScoped (account : ScimResource) (op : String) (value : Json) :
    Scoped digest connection (patchMembers connection account op value) :=
  scopedIf (replaceMembersScoped _ _) (scopedIf (addMembersScoped _ _) (replaceMembersScoped _ _))

theorem patchGroupPathScoped (account : ScimResource) (operation : Object) (op : String) (path : Option String) :
    Scoped digest connection (patchGroupPath connection id account operation op path) := by
  unfold patchGroupPath
  simp only
  split
  · exact scopedIf (.throw _) (renameGroupScoped _ _)
  · exact .bind (patchMembersScoped _ _ _) fun _ => .pure _
  · split
    · exact scopedIf (.bind (removeMembersScoped _ _) fun _ => .pure _) (scopedLift _)
    · exact scopedLift _

theorem patchGroupOperationScoped (account : ScimResource) (operation : Json) :
    Scoped digest connection (patchGroupOperation connection id account operation) := by
  refine .bind (scopedLift _) fun operation => .bind (scopedLift _) fun op => ?_
  split
  · exact scopedIf (scopedLift _) (patchGroupValueScoped _ _)
  · exact .bind (scopedLift _) fun _ => patchGroupPathScoped _ _ _ _

theorem patchGroupOperationsScoped (account : ScimResource) (operations : List Json) :
    Scoped digest connection (patchGroupOperations connection id account operations) := by
  induction operations generalizing account with
  | nil => exact .pure account
  | cons operation rest ih => exact .bind (patchGroupOperationScoped account operation) ih

theorem patchGroupScoped (operations : Option Json) : Scoped digest connection (patchGroup connection id operations) :=
  .bind findGroupScoped fun _ => .bind (scopedLift _) fun _ => .bind (patchGroupOperationsScoped _ _) fun _ => shownScoped

theorem deleteGroupScoped : Scoped digest connection (deleteGroup connection id) :=
  .bind findGroupScoped fun _ => .bind (replaceMembersScoped _ _) fun _ => .bind .now fun _ =>
    .bind (.update _ _) fun _ => .pure ()

end ScimService

inductive ScimCommand where
  | getUsers
  | getUser (id : String)
  | postUser (resource : Json)
  | putUser (id : String) (resource : Json)
  | patchUser (id : String) (operations : Option Json)
  | deleteUser (id : String)
  | getGroups
  | getGroup (id : String)
  | postGroup (resource : Json)
  | putGroup (id : String) (resource : Json)
  | patchGroup (id : String) (operations : Option Json)
  | deleteGroup (id : String)

inductive ScimResponse where
  | user (account : ScimResource)
  | users (accounts : List ScimResource)
  | group (shown : ShownGroup)
  | groups (shown : List ShownGroup)
  | empty

def showGroup (users : List ScimResource) (account : ScimResource) : ShownGroup :=
  (account,(ScimService.members account users).map fun user => (user.accountId,user.identity.userName))

namespace ScimCommand
open ScimService
variable (digest : String → String) (connection : ScimConnection)

def respond : ScimCommand → Scim ScimResponse
  | .getUsers => do
      let accounts ← listUsers connection
      .pure (.users accounts)
  | .getUser id => do
      let account ← findUser connection id
      .pure (.user account)
  | .postUser resource => do
      let account ← createUser digest connection resource
      .pure (.user account)
  | .putUser id resource => do
      let account ← replaceUser connection id resource
      .pure (.user account)
  | .patchUser id operations => do
      let account ← ScimService.patchUser connection id operations
      .pure (.user account)
  | .deleteUser id => do
      let _ ← deactivateUser connection id
      .pure .empty
  | .getGroups => do
      let groups ← listGroups connection
      let users ← listUsers connection
      .pure (.groups (groups.map (showGroup users)))
  | .getGroup id => do
      let shown ← findGroup connection id >>= groupResource connection
      .pure (.group shown)
  | .postGroup resource => do
      let shown ← createGroup digest connection resource
      .pure (.group shown)
  | .putGroup id resource => do
      let shown ← replaceGroup connection id resource
      .pure (.group shown)
  | .patchGroup id operations => do
      let shown ← ScimService.patchGroup connection id operations
      .pure (.group shown)
  | .deleteGroup id => do
      ScimService.deleteGroup connection id
      .pure .empty

variable {digest connection}

theorem respondScoped (command : ScimCommand) : Scoped digest connection (command.respond digest connection) := by
  cases command with
  | getUsers => exact .bind listUsersScoped fun _ => .pure _
  | getUser id => exact .bind findUserScoped fun _ => .pure _
  | postUser resource => exact .bind (createUserScoped resource) fun _ => .pure _
  | putUser id resource => exact .bind (replaceUserScoped resource) fun _ => .pure _
  | patchUser id operations => exact .bind (patchUserScoped operations) fun _ => .pure _
  | deleteUser id => exact .bind (patchUserScoped _) fun _ => .pure _
  | getGroups => exact .bind listGroupsScoped fun _ => .bind listUsersScoped fun _ => .pure _
  | getGroup id => exact .bind shownScoped fun _ => .pure _
  | postGroup resource => exact .bind (createGroupScoped resource) fun _ => .pure _
  | putGroup id resource => exact .bind (replaceGroupScoped resource) fun _ => .pure _
  | patchGroup id operations => exact .bind (patchGroupScoped operations) fun _ => .pure _
  | deleteGroup id => exact .bind deleteGroupScoped fun _ => .pure _

end ScimCommand
end Passmower
