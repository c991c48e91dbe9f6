import Yahfa.Base.Chain
import Yahfa.Base.Trace
import Yahfa.Trampoline
import Yahfa.Dispatch
import Yahfa.Failure
import Yahfa.YafyaMain
import Yahfa.BackupAndHook
import Yahfa.MachineCode
import Yahfa.Footprint
import Yahfa.Execution
import Yahfa.Forwarding
import Yahfa.RefreshProgress
import Yahfa.ElfHook
import Yahfa.ElfInit
import Yahfa.RbTreeOps
import Yahfa.MemProtect
import Yahfa.RefreshLibraries
import Yahfa.RefreshTrees
import Yahfa.FakeDlopen
import Yahfa.ClassLinkerReads
import Yahfa.VisiblyInit
import Yahfa.ListingOrder
import Yahfa.Isolation
import Yahfa.PookApi
import Yahfa.Rewriting
