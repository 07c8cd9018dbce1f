/-
# What a snapshot and the collector see

| view | shows |
| --- | --- |
| `snapshotRoots` | every pinned object once, ascending |
| `rootIds` | the id of every object that has an ordinary one, and of every pinned sentinel |
| `marks` | all that the registry keeps alive |

The views are *extract snapshot roots*, *invert root map* and the *mark callback* of the registry
(specification, section 4.1).
-/

import Retrace.Registry.Lifecycle

namespace Retrace

namespace Registry

/-- Every object pinned in one way or another, once, in ascending order of handles.  A snapshot
begins from them. -/
def snapshotRoots (r : Registry) : List ObjectHandle :=
  let pinned := r.roots.handles ++ r.localRoots.handles ++ r.specialRoots.handles
  (OrderedMap.empty.insertAll (pinned.map fun obj => (obj, ()))).keys

/-- The ids of objects, the ordinary ones as well as those of pinned sentinels, turned round from
the map that leads from ids to objects. -/
def rootIds (r : Registry) : OrderedMap ObjectHandle LogId :=
  let sentinels := r.snapshotRoots.filterMap fun obj => (r.sentinelIdOf? obj).map fun id => (obj, id)
  OrderedMap.empty.insertAll (r.objectOfId.entries.map (fun e => (e.2, e.1)) ++ sentinels)

/-- What the registry keeps alive: what is pinned, the sentinels of every context, what the journals
pin, and the core image.  An object kept for two reasons is listed twice. -/
def marks (r : Registry) : Marks :=
  let pinned : Marks :=
    { objects := r.roots.handles ++ r.localRoots.handles ++ r.specialRoots.handles }
  let sentinels : Marks := { objects := r.contexts.flatMap fun c => c.sentinels.toList }
  let journals := r.journals.values.foldl (fun m j => m ++ j.marks) ({} : Marks)
  pinned ++ sentinels ++ journals ++ (r.corePaths.map CorePaths.marks).getD {}

end Registry

end Retrace
