import AlephCvm.AcceptedCommands
import AlephCvm.ForwardAgreement
import AlephCvm.VmRoundTrip

/-!
# Fields that are narrowed

The service cuts the 32-bit ports of a request to sixteen bits and the prefix
length to eight.  What a successful call did is compared here with the fields
as they were sent.
-/

namespace AlephCvm.Net

end AlephCvm.Net

namespace AlephCvm.Vm

open ResultContext StepRuns AlephCvm.Net AlephCvm.Grpc

variable {cfg : NodeConfig}

end AlephCvm.Vm
