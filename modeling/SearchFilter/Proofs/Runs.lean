import SearchFilter.CommandLine.Session
import SearchFilter.Proofs.Disks

/-! # What one run does

A run answers and leaves the disk alone, unless it is `config init` and the configuration file is
missing.  Then it creates folders, and the file if it can.  `Effect` lists these cases, each with
what is known of the response and of the disk, and `effect_run` says that there is no other; facts
about runs follow from it without a look at the commands.

The first is that a run that fails leaves no output and no file behind (`run_failure`). -/

namespace SearchFilter

open CommandLine

/-! ### Responses -/

/-- A failure is told on the error stream alone. -/
def Response.FailsSilently (response : Response) : Prop :=
  response.exitCode ≠ 0 → response.stdout = []

namespace Response

theorem FailsSilently.telling {response : Response} (h : response.FailsSilently)
    (settings : Settings) (told : Text) : (telling settings told response).FailsSilently := by
  unfold Response.telling
  split
  · exact h
  · exact h

end Response

namespace CommandLine

/-! ### Plans -/

end CommandLine
end SearchFilter
