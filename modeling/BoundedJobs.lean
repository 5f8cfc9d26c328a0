import BoundedJobs.Main
import BoundedJobs.Proofs.Capacity.Failure
import BoundedJobs.Proofs.Capacity.Hint
import BoundedJobs.Proofs.Cli.Diary
import BoundedJobs.Proofs.Cli.Jobs
import BoundedJobs.Proofs.Docker.Format
import BoundedJobs.Proofs.Docker.Probe
import BoundedJobs.Proofs.Runner.AbortSafety
import BoundedJobs.Proofs.Runner.Blame
import BoundedJobs.Proofs.Runner.Fate
import BoundedJobs.Proofs.Runner.Isolation
import BoundedJobs.Proofs.Runner.Makespan
import BoundedJobs.Proofs.Runner.Observers
import BoundedJobs.Proofs.Runner.StartOrder
import BoundedJobs.Proofs.Runner.Timekeeping
import BoundedJobs.Proofs.Semaphore.Fairness
import BoundedJobs.Proofs.Semaphore.Repeats
