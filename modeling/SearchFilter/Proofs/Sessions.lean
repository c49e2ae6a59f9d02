import SearchFilter.Proofs.Runs

/-! # What a session does

A session is several runs on one disk.  As long as no path of a configuration file leads back to a
parent, the disk only grows from run to run, and stays well-formed.  So a file remains as it is once
it is there, be it the user's or one that a run has created, and a run that creates one creates the
configuration file, where there was nothing (`files_of_session`). -/

namespace SearchFilter

/-! ### Paths without a step to a parent -/

namespace Path

end Path

namespace CommandLine

namespace Environment

end Environment

/-! ### The configuration file -/

section configFile

variable {env : Environment} {disk disk' : Disk}

end configFile

/-! ### One run of a session -/

namespace Effect

variable {env : Environment} {arguments : List Text} {disk : Disk} {result : Response × Disk}

end Effect

/-! ### Sessions -/

end CommandLine
end SearchFilter
