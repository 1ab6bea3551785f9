import Anka.Fabric.PointerKind
import Anka.Fabric.CommitGeneration
import Anka.Fabric.EffectWitness
import Anka.ScopedPointers.Leases
import Anka.Placement.Claims
import Anka.Placement.Manager
import Anka.Core.Privilege
import Anka.Core.Discipline
import Anka.Core.Flags
import Anka.Kernel.DmaLifecycle
import Anka.Authority.FileBackend
import Anka.Authority.Protocol
import Anka.SystemImage.Load
import Anka.Link.Exact
import Anka.Link.Boundaries
import Anka.Net.Session
import Anka.SourceBundle
import Anka.Concurrent
