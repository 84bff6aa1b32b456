import Mathlib.Data.List.MinMax
import FaceCore.Lib.IdPool

/-!
# The calendar

`CalendarMgr` and the requests of `CalendarHandler.cpp` that change it: adding, updating, copying
and removing events, inviting, signing up, answering, and changing or removing invites.

* `CalendarInvite`, `CalendarEvent`, `CalendarMgr`: the data;
* `addEvent`, `addInvite`, `removeEvent`, `removeInvite`: the operations of the manager; ids come
  from two pools, and go back to them in the destructors of `CalendarInvite` and `CalendarEvent`;
* `load`: `LoadFromDB`;
* `Request`, `handle`, `step`: the requests, their answers, and the calendar afterwards.

The invites of an event are those that carry its id, in the order in which they were added. Packets
to players, mails and database statements do not feed back into the calendar and are left out.
-/

namespace FaceCore.Calendar

/-- `CALENDAR_FLAG_INVITES_LOCKED`. -/
def calendarFlagInvitesLocked : UInt32 := 0x010

/-- `CALENDAR_FLAG_WITHOUT_INVITES`. -/
def calendarFlagWithoutInvites : UInt32 := 0x040

/-- `CALENDAR_FLAG_GUILD_EVENT`. -/
def calendarFlagGuildEvent : UInt32 := 0x400

/-- `CALENDAR_RANK_PLAYER`. -/
def calendarRankPlayer : ℕ := 0

/-- `CALENDAR_STATUS_INVITED`. -/
def calendarStatusInvited : ℕ := 0

/-- `CALENDAR_STATUS_SIGNED_UP`. -/
def calendarStatusSignedUp : ℕ := 6

/-- `CALENDAR_STATUS_NOT_SIGNED_UP`. -/
def calendarStatusNotSignedUp : ℕ := 7

/-- `CALENDAR_STATUS_TENTATIVE`. -/
def calendarStatusTentative : ℕ := 8

/-- `CALENDAR_STATUS_REMOVED`. -/
def calendarStatusRemoved : ℕ := 9

/-- 01/01/2000 00:00:00, the default response time. -/
def defaultStatusTime : ℕ := 946684800

/-- The errors of `CalendarError` that the requests answer with. -/
inductive CalendarError
  | eventInvalid
  | guildPlayerNotInGuild
  | playerNotFound
  | notAllied
  | ignoringYou
  | eventLocked
  | deleteCreatorFailed
  | noInvite
  | noGuildInvites
  deriving DecidableEq

/-- `CalendarInvite`. -/
structure CalendarInvite where
  inviteId : ℕ
  eventId : ℕ
  invitee : ℕ
  senderGUID : ℕ
  statusTime : ℕ
  status : ℕ
  rank : ℕ
  text : String
  deriving DecidableEq

/-- What a request says about an event. -/
structure EventFields where
  type : ℕ
  dungeonId : ℤ
  eventTime : ℕ
  flags : UInt32
  timezoneTime : ℕ
  title : String
  description : String
  deriving DecidableEq

/-- `CalendarEvent`. -/
structure CalendarEvent extends EventFields where
  eventId : ℕ
  creatorGUID : ℕ
  guildId : ℕ
  deriving DecidableEq

/-- `CalendarEvent::IsGuildEvent`. -/
def CalendarEvent.isGuildEvent (e : CalendarEvent) : Bool := e.flags &&& calendarFlagGuildEvent ≠ 0

/-- `CalendarEvent::IsGuildAnnouncement`. -/
def CalendarEvent.isGuildAnnouncement (e : CalendarEvent) : Bool :=
  e.flags &&& calendarFlagWithoutInvites ≠ 0

/-- `CalendarMgr`: events, invites and the two pools of ids. -/
structure CalendarMgr where
  events : List CalendarEvent
  invites : List CalendarInvite
  eventIds : IdPool
  inviteIds : IdPool

/-- Ids have 64 bits. -/
def idBound : ℕ := 2 ^ 64

namespace CalendarMgr

/-- `CalendarMgr::GetEvent`. -/
def getEvent (c : CalendarMgr) (eventId : ℕ) : Option CalendarEvent :=
  c.events.find? fun e => e.eventId = eventId

/-- `CalendarMgr::GetEventInvites`. -/
def getEventInvites (c : CalendarMgr) (eventId : ℕ) : List CalendarInvite :=
  c.invites.filter fun i => i.eventId = eventId

/-- `CalendarMgr::GetInvite`: the first with the id, in the order of the ids of the events. -/
def getInvite (c : CalendarMgr) (inviteId : ℕ) : Option CalendarInvite :=
  (c.invites.filter fun i => i.inviteId = inviteId).argmin CalendarInvite.eventId

/-- `CalendarMgr::GetFreeEventId`. -/
def getFreeEventId (c : CalendarMgr) : ℕ × CalendarMgr :=
  ((c.eventIds.get idBound).1, { c with eventIds := (c.eventIds.get idBound).2 })

/-- `CalendarMgr::GetFreeInviteId`. -/
def getFreeInviteId (c : CalendarMgr) : ℕ × CalendarMgr :=
  ((c.inviteIds.get idBound).1, { c with inviteIds := (c.inviteIds.get idBound).2 })

/-- `CalendarMgr::FreeEventId`. -/
def freeEventId (c : CalendarMgr) (id : ℕ) : CalendarMgr :=
  { c with eventIds := c.eventIds.release idBound id }

/-- `CalendarMgr::FreeInviteId`. -/
def freeInviteId (c : CalendarMgr) (id : ℕ) : CalendarMgr :=
  { c with inviteIds := c.inviteIds.release idBound id }

/-- `CalendarMgr::AddEvent`. -/
def addEvent (c : CalendarMgr) (e : CalendarEvent) : CalendarMgr :=
  { c with events := c.events ++ [e] }

/-- `CalendarMgr::AddInvite`. -/
def addInvite (c : CalendarMgr) (e : CalendarEvent) (i : CalendarInvite) : CalendarMgr :=
  if e.isGuildAnnouncement then c else { c with invites := c.invites ++ [i] }

/-- `delete invite`. -/
def deleteInvite (c : CalendarMgr) (i : CalendarInvite) : CalendarMgr := c.freeInviteId i.inviteId

/-- `CalendarMgr::RemoveEvent`. -/
def removeEvent (c : CalendarMgr) (eventId : ℕ) : Except CalendarError CalendarMgr :=
  match c.getEvent eventId with
  | none => .error .eventInvalid
  | some e =>
    let c := (c.getEventInvites eventId).foldl deleteInvite c
    let c := { c with invites := c.invites.filter fun i => i.eventId ≠ eventId }
    let c := c.freeEventId e.eventId
    .ok { c with events := c.events.erase e }

/-- `CalendarMgr::RemoveInvite`. -/
def removeInvite (c : CalendarMgr) (inviteId eventId : ℕ) : CalendarMgr :=
  match c.getEvent eventId with
  | none => c
  | some _ =>
    match (c.getEventInvites eventId).find? fun i => i.inviteId = inviteId with
    | none => c
    | some i =>
      let c := c.deleteInvite i
      { c with invites := c.invites.erase i }

/-- Change the fields of an invite. -/
def setInvite (c : CalendarMgr) (i i' : CalendarInvite) : CalendarMgr :=
  { c with invites := c.invites.replace i i' }

end CalendarMgr

open CalendarMgr

/-- `CalendarMgr::LoadFromDB` of the rows of `calendar_events` and `calendar_invites`. -/
def load (events : List CalendarEvent) (invites : List CalendarInvite) : CalendarMgr :=
  ⟨events, invites, IdPool.load (events.map CalendarEvent.eventId),
    IdPool.load (invites.map CalendarInvite.inviteId)⟩

/-! ### Requests -/

/-- What a request to add an event says about an invite. -/
structure InviteFields where
  invitee : ℕ
  status : ℕ
  rank : ℕ
  deriving DecidableEq

/-- What `HandleCalendarEventInvite` looks up: the invitee by his name (`0` if there is none), the
player who invites, the configuration option, and whether the invitee ignores the player. -/
structure InviteeLookup where
  inviteeGuid : ℕ
  inviteeTeam : ℕ
  inviteeGuildId : ℕ
  team : ℕ
  guildId : ℕ
  allowTwoSideInteraction : Bool
  ignored : Bool

/-- The requests, with the fields of their packets and what else they read. -/
inductive Request
  | addEvent (guildId : Option ℕ) (fields : EventFields) (inviteCount : ℕ)
    (invites : List InviteFields)
  | updateEvent (eventId inviteId : ℕ) (fields : EventFields)
  | removeEvent (eventId : ℕ)
  | copyEvent (eventId inviteId time : ℕ)
  | eventInvite (eventId inviteId : ℕ) (isPreInvite isGuildEvent : Bool) (found : InviteeLookup)
  | eventSignup (guildId eventId : ℕ) (tentative : Bool) (now : ℕ)
  | eventRsvp (eventId inviteId status now : ℕ)
  | eventRemoveInvite (invitee inviteId ownerInviteId eventId : ℕ)
  | eventStatus (invitee eventId inviteId ownerInviteId status : ℕ)
  | eventModeratorStatus (invitee eventId inviteId ownerInviteId rank : ℕ)

/-- The event of a request to add one. -/
def newEvent (eventId guid : ℕ) (guildId : Option ℕ) (fields : EventFields) : CalendarEvent :=
  let e : CalendarEvent :=
    { toEventFields := fields, eventId := eventId, creatorGUID := guid, guildId := 0 }
  if e.isGuildEvent || e.isGuildAnnouncement then { e with guildId := guildId.getD 0 } else e

/-- The loop body of `HandleCalendarAddEvent`. -/
def inviteTo (guid : ℕ) (e : CalendarEvent) (c : CalendarMgr) (x : InviteFields) : CalendarMgr :=
  let (inviteId, c) := c.getFreeInviteId
  c.addInvite e ⟨inviteId, e.eventId, x.invitee, guid, defaultStatusTime, x.status, x.rank, ""⟩

/-- `WorldSession::HandleCalendarAddEvent`. The packet announces `inviteCount` invites; if it has
fewer, reading it fails after those, and the event is not added. -/
def handleCalendarAddEvent (c : CalendarMgr) (guid : ℕ) (guildId : Option ℕ) (fields : EventFields)
    (inviteCount : ℕ) (invites : List InviteFields) : CalendarMgr :=
  let (eventId, c) := c.getFreeEventId
  let e := newEvent eventId guid guildId fields
  if e.isGuildAnnouncement then
    let c := c.addInvite e
      ⟨0, e.eventId, 0, guid, defaultStatusTime, calendarStatusNotSignedUp, calendarRankPlayer, ""⟩
    c.addEvent e
  else
    let c := (invites.take inviteCount).foldl (inviteTo guid e) c
    if invites.length < inviteCount then c else c.addEvent e

/-- `WorldSession::HandleCalendarUpdateEvent`. -/
def handleCalendarUpdateEvent (c : CalendarMgr) (eventId : ℕ) (fields : EventFields) :
    Except CalendarError CalendarMgr :=
  match c.getEvent eventId with
  | none => .error .eventInvalid
  | some e => .ok { c with events := c.events.replace e { e with toEventFields := fields } }

/-- `WorldSession::HandleCalendarRemoveEvent`. -/
def handleCalendarRemoveEvent (c : CalendarMgr) (eventId : ℕ) : Except CalendarError CalendarMgr :=
  c.removeEvent eventId

/-- The loop body of `HandleCalendarCopyEvent`. -/
def copyTo (e : CalendarEvent) (c : CalendarMgr) (i : CalendarInvite) : CalendarMgr :=
  let (inviteId, c) := c.getFreeInviteId
  c.addInvite e { i with inviteId := inviteId, eventId := e.eventId }

/-- `WorldSession::HandleCalendarCopyEvent`. -/
def handleCalendarCopyEvent (c : CalendarMgr) (eventId time : ℕ) :
    Except CalendarError CalendarMgr :=
  match c.getEvent eventId with
  | none => .error .eventInvalid
  | some oldEvent =>
    let (newId, c) := c.getFreeEventId
    let e := { oldEvent with eventId := newId, eventTime := time }
    let c := c.addEvent e
    .ok ((c.getEventInvites eventId).foldl (copyTo e) c)

/-- `WorldSession::HandleCalendarEventInvite`. The invite of a pre-invite is a local variable, with
the id of the packet; it is destroyed at the end. -/
def handleCalendarEventInvite (c : CalendarMgr) (playerGuid eventId inviteId : ℕ)
    (isPreInvite isGuildEvent : Bool) (found : InviteeLookup) : Except CalendarError CalendarMgr :=
  if found.inviteeGuid = 0 then .error .playerNotFound
  else if found.team ≠ found.inviteeTeam ∧ !found.allowTwoSideInteraction then .error .notAllied
  else if found.ignored then .error .ignoringYou
  else if !isPreInvite then
    match c.getEvent eventId with
    | none => .error .eventInvalid
    | some e =>
      if e.isGuildEvent ∧ e.guildId = found.inviteeGuildId then .error .noGuildInvites
      else
        let (inviteId, c) := c.getFreeInviteId
        .ok (c.addInvite e ⟨inviteId, eventId, found.inviteeGuid, playerGuid, defaultStatusTime,
          calendarStatusInvited, calendarRankPlayer, ""⟩)
  else if isGuildEvent ∧ found.inviteeGuildId = found.guildId then .error .noGuildInvites
  else
    let invite : CalendarInvite := ⟨inviteId, 0, found.inviteeGuid, playerGuid, defaultStatusTime,
      calendarStatusInvited, calendarRankPlayer, ""⟩
    .ok (c.deleteInvite invite)

/-- `WorldSession::HandleCalendarEventSignup`. -/
def handleCalendarEventSignup (c : CalendarMgr) (guid guildId eventId : ℕ) (tentative : Bool)
    (now : ℕ) : Except CalendarError CalendarMgr :=
  match c.getEvent eventId with
  | none => .error .eventInvalid
  | some e =>
    if e.isGuildEvent ∧ e.guildId ≠ guildId then .error .guildPlayerNotInGuild
    else
      let status := if tentative then calendarStatusTentative else calendarStatusSignedUp
      let (inviteId, c) := c.getFreeInviteId
      .ok (c.addInvite e ⟨inviteId, eventId, guid, guid, now, status, calendarRankPlayer, ""⟩)

/-- `WorldSession::HandleCalendarEventRsvp`. -/
def handleCalendarEventRsvp (c : CalendarMgr) (eventId inviteId status now : ℕ) :
    Except CalendarError CalendarMgr :=
  match c.getEvent eventId with
  | none => .error .eventInvalid
  | some e =>
    if status ≠ calendarStatusRemoved ∧ e.flags &&& calendarFlagInvitesLocked ≠ 0 then
      .error .eventLocked
    else
      match c.getInvite inviteId with
      | none => .error .noInvite
      | some i => .ok (c.setInvite i { i with status := status, statusTime := now })

/-- `WorldSession::HandleCalendarEventRemoveInvite`. -/
def handleCalendarEventRemoveInvite (c : CalendarMgr) (invitee inviteId eventId : ℕ) :
    Except CalendarError CalendarMgr :=
  match c.getEvent eventId with
  | none => .error .noInvite
  | some e =>
    if e.creatorGUID = invitee then .error .deleteCreatorFailed
    else .ok (c.removeInvite inviteId eventId)

/-- `WorldSession::HandleCalendarEventStatus`. -/
def handleCalendarEventStatus (c : CalendarMgr) (eventId inviteId status : ℕ) :
    Except CalendarError CalendarMgr :=
  match c.getEvent eventId with
  | none => .error .eventInvalid
  | some _ =>
    match c.getInvite inviteId with
    | none => .error .noInvite
    | some i => .ok (c.setInvite i { i with status := status })

/-- `WorldSession::HandleCalendarEventModeratorStatus`. -/
def handleCalendarEventModeratorStatus (c : CalendarMgr) (eventId inviteId rank : ℕ) :
    Except CalendarError CalendarMgr :=
  match c.getEvent eventId with
  | none => .error .eventInvalid
  | some _ =>
    match c.getInvite inviteId with
    | none => .error .noInvite
    | some i => .ok (c.setInvite i { i with rank := rank })

/-- A request of the player `guid`: the calendar afterwards, or the error he is sent. -/
def handle (c : CalendarMgr) (guid : ℕ) : Request → Except CalendarError CalendarMgr
  | .addEvent guildId fields inviteCount invites =>
    .ok (handleCalendarAddEvent c guid guildId fields inviteCount invites)
  | .updateEvent eventId _ fields => handleCalendarUpdateEvent c eventId fields
  | .removeEvent eventId => handleCalendarRemoveEvent c eventId
  | .copyEvent eventId _ time => handleCalendarCopyEvent c eventId time
  | .eventInvite eventId inviteId isPreInvite isGuildEvent found =>
    handleCalendarEventInvite c guid eventId inviteId isPreInvite isGuildEvent found
  | .eventSignup guildId eventId tentative now =>
    handleCalendarEventSignup c guid guildId eventId tentative now
  | .eventRsvp eventId inviteId status now => handleCalendarEventRsvp c eventId inviteId status now
  | .eventRemoveInvite invitee inviteId _ eventId =>
    handleCalendarEventRemoveInvite c invitee inviteId eventId
  | .eventStatus _ eventId inviteId _ status => handleCalendarEventStatus c eventId inviteId status
  | .eventModeratorStatus _ eventId inviteId _ rank =>
    handleCalendarEventModeratorStatus c eventId inviteId rank

/-- A request and who sends it; one that is refused changes nothing. -/
def step (c : CalendarMgr) (r : ℕ × Request) : CalendarMgr :=
  match handle c r.1 r.2 with
  | .ok c' => c'
  | .error _ => c

end FaceCore.Calendar
