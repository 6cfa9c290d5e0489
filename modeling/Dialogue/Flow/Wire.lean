import Dialogue.Flow
import Dialogue.Shape.Wire

/-!
# The wire format of flows

Every record of a flow, member by member in declared order. Lists and titles may be missing; what is
optional is left out when there is nothing to write, except for the version, which is then written
as null. Settings and their parts keep the entries they do not name.
-/

namespace Dialogue

open Members

instance : Wire Block :=
  .record "Block"
    (required "id" String <| required "type" String <| optional "outgoingEdgeId" String <|
      optional "options" Json <| nil)
    (fun (id, type, outgoing, options, ()) => ⟨id, type, outgoing, options⟩)
    (fun b => (b.id, b.type, b.outgoingEdgeId, b.options, ()))
    (fun _ => rfl) (fun _ => rfl)

instance : Wire Group :=
  .record "Group"
    (required "id" String <| defaulted "title" (.string "") String <|
      defaulted "blocks" (.array []) (List Block) <| nil)
    (fun (id, title, blocks, ()) => ⟨id, title, blocks⟩)
    (fun g => (g.id, g.title, g.blocks, ()))
    (fun _ => rfl) (fun _ => rfl)

instance : Wire Source :=
  .record "EdgeSource"
    (optional "blockId" String <| optional "itemId" String <| optional "pathId" String <|
      optional "eventId" String <| nil)
    (fun (block, item, path, event, ()) => ⟨block, item, path, event⟩)
    (fun s => (s.blockId, s.itemId, s.pathId, s.eventId, ()))
    (fun _ => rfl) (fun _ => rfl)

instance : Wire Target :=
  .record "EdgeTarget"
    (required "groupId" String <| optional "blockId" String <| nil)
    (fun (group, block, ()) => ⟨group, block⟩)
    (fun t => (t.groupId, t.blockId, ()))
    (fun _ => rfl) (fun _ => rfl)

instance : Wire Edge :=
  .record "Edge"
    (required "id" String <| defaulted "from" (.object []) Source <| required "to" Target <| nil)
    (fun (id, source, target, ()) => ⟨id, source, target⟩)
    (fun e => (e.id, e.source, e.target, ()))
    (fun _ => rfl) (fun _ => rfl)

instance : Wire Event :=
  .record "EntryEvent"
    (required "id" String <| defaulted "type" (.string "start") String <|
      optional "outgoingEdgeId" String <| nil)
    (fun (id, type, outgoing, ()) => ⟨id, type, outgoing⟩)
    (fun e => (e.id, e.type, e.outgoingEdgeId, ()))
    (fun _ => rfl) (fun _ => rfl)

instance : Wire Variable :=
  .record "Variable"
    (required "id" String <| required "name" String <| optional "value" Json <| nil)
    (fun (id, name, value, ()) => ⟨id, name, value⟩)
    (fun v => (v.id, v.name, v.value, ()))
    (fun _ => rfl) (fun _ => rfl)

instance : Wire Messages :=
  .openRecord "SystemMessages"
    (optional "invalidMessage" String <| optional "botClosed" String <|
      optional "networkErrorTitle" String <| optional "networkErrorMessage" String <| nil)
    (fun ((invalid, closed, title, message, ()), extra) => ⟨invalid, closed, title, message, extra⟩)
    (fun m =>
      ((m.invalidMessage, m.botClosed, m.networkErrorTitle, m.networkErrorMessage, ()), m.extra))
    (fun _ => rfl) (fun _ => rfl)

instance : Wire General :=
  .openRecord "GeneralSettings"
    (optional "systemMessages" Messages <| nil)
    (fun ((messages, ()), extra) => ⟨messages, extra⟩)
    (fun g => ((g.systemMessages, ()), g.extra))
    (fun _ => rfl) (fun _ => rfl)

instance : Wire Settings :=
  .openRecord "FlowSettings"
    (optional "general" General <| nil)
    (fun ((general, ()), extra) => ⟨general, extra⟩)
    (fun s => ((s.general, ()), s.extra))
    (fun _ => rfl) (fun _ => rfl)

instance : Wire Flow :=
  .record "FlowSnapshot"
    (required "id" String <| defaulted "version" .null (Option String) <|
      defaulted "groups" (.array []) (List Group) <| defaulted "edges" (.array []) (List Edge) <|
      defaulted "events" (.array []) (List Event) <|
      defaulted "variables" (.array []) (List Variable) <|
      defaulted "settings" (.object []) Settings <| optional "systemMessages" Messages <| nil)
    (fun (id, version, groups, edges, events, vars, settings, messages, ()) =>
      ⟨id, version, groups, edges, events, vars, settings, messages⟩)
    (fun f => (f.id, f.version, f.groups, f.edges, f.events, f.vars, f.settings,
      f.systemMessages, ()))
    (fun _ => rfl) (fun _ => rfl)

end Dialogue
