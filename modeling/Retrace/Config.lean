/-
# Configuration

| setting | default | meaning |
| --- | ---: | --- |
| `uri` | empty | where the log lies, handed to the host as it is |
| `snapInterval` | 2000 | milliseconds between snapshots |
| `snapHistoryLength` | 2 | snapshots kept |
| `maxContexts` | 32 | most contexts tracked at one time |
| `firstLogId` | 1 | the first ordinary id handed out |
| `coreObjectCapacity` | 1028 | expected number of core objects |
| `coreBodyCapacity` | 512 | expected number of core bodies |

Keys, defaults and what is refused are those of the configuration in the specification (section 8).
-/

import Retrace.Error

namespace Retrace

/-- The settings of one runtime thread.  They are read once, checked before a registry is made from
them, and never changed afterwards. -/
structure Config where
  /-- Where the log lies. -/
  uri : String := ""
  /-- Milliseconds between snapshots. -/
  snapInterval : UInt32 := 2000
  /-- Snapshots kept. -/
  snapHistoryLength : UInt32 := 2
  /-- Most contexts tracked at one time. -/
  maxContexts : UInt64 := 32
  /-- The first ordinary id handed out. -/
  firstLogId : UInt64 := 1
  /-- Expected number of core objects; a hint. -/
  coreObjectCapacity : UInt64 := 1028
  /-- Expected number of core bodies; a hint. -/
  coreBodyCapacity : UInt64 := 512
deriving DecidableEq

/-- Refuses settings that cannot be worked with: no contexts, or a first id that is zero or not
ordinary.  How many contexts there can be room for is not asked here (`Registry.create`). -/
def Config.validate (c : Config) : Except Error Unit :=
  if c.maxContexts = 0 then .error (.config .noContexts)
  else if c.firstLogId = 0 ∨ LogId.sentinelBase ≤ c.firstLogId then
    .error (.config (.firstIdOutOfRange c.firstLogId))
  else .ok ()

end Retrace
