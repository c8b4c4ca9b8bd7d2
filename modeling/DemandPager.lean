import DemandPager.Bench
import DemandPager.Content
import DemandPager.Geometry
import DemandPager.Pager
import DemandPager.Paging.Host
import DemandPager.Paging.Scripted
import DemandPager.Poller.Host
import DemandPager.Settings
import DemandPager.Worker.Loop
import DemandPager.Proofs.Chunks
import DemandPager.Proofs.Ends
import DemandPager.Proofs.Books
import DemandPager.Proofs.Moves
import DemandPager.Proofs.Eviction
import DemandPager.Proofs.Faults
import DemandPager.Proofs.Creation
import DemandPager.Proofs.Releases
import DemandPager.Proofs.Serving
import DemandPager.Proofs.Budget
import DemandPager.Proofs.Teardown
import DemandPager.Proofs.Pages
import DemandPager.Proofs.Willing
import DemandPager.Proofs.Residency
import DemandPager.Proofs.Settled
import DemandPager.Proofs.Occupancy
import DemandPager.Proofs.Contents
import DemandPager.Proofs.Stores
import DemandPager.Proofs.VirtualArray
import DemandPager.Proofs.Errands
import DemandPager.Proofs.Deeds
import DemandPager.Proofs.Parts
import DemandPager.Proofs.Courses
import DemandPager.Proofs.Conduct
import DemandPager.Proofs.Dismantling
import DemandPager.Proofs.Closing
import DemandPager.Proofs.Calls
import DemandPager.Proofs.Floor
import DemandPager.Proofs.Duties
import DemandPager.Proofs.Gates
import DemandPager.Proofs.Overlap
import DemandPager.Proofs.Requests
import DemandPager.Proofs.Answers
import DemandPager.Proofs.Revival
import DemandPager.Proofs.Recall
import DemandPager.Proofs.Writes
import DemandPager.Proofs.Survival
import DemandPager.Proofs.Sizes
import DemandPager.Proofs.Outcomes
import DemandPager.Proofs.Discretion
import DemandPager.Proofs.Mail
import DemandPager.Proofs.Dealings
import DemandPager.Proofs.Conclusions
import DemandPager.Proofs.Wakeups
import DemandPager.Proofs.Interference
import DemandPager.Proofs.Dues
import DemandPager.Proofs.Obligations
import DemandPager.Proofs.Thread
import DemandPager.Proofs.Fulfilment
import DemandPager.Proofs.Stations
import DemandPager.Proofs.Edits
import DemandPager.Proofs.Causes
import DemandPager.Proofs.Installs
import DemandPager.Proofs.Registry
import DemandPager.Proofs.Directory
import DemandPager.Proofs.Sessions
import DemandPager.Proofs.Fifo
import DemandPager.Proofs.Room
import DemandPager.Proofs.Logs
import DemandPager.Proofs.Counters
import DemandPager.Proofs.HandOvers
import DemandPager.Proofs.Undoing
import DemandPager.Proofs.Tidiness
import DemandPager.Proofs.Histories
import DemandPager.Proofs.Partings
import DemandPager.Proofs.Backing
import DemandPager.Proofs.Failures
import DemandPager.Proofs.Repeats
import DemandPager.Proofs.Tiling
import DemandPager.Proofs.Measures
import DemandPager.Proofs.Regions
import DemandPager.Proofs.Completions
import DemandPager.Proofs.Attempts
import DemandPager.Proofs.Slots
import DemandPager.Proofs.Presence
import DemandPager.Proofs.Exhaustion
import DemandPager.Proofs.Retirement
import DemandPager.Proofs.Overhang
import DemandPager.Proofs.Relays
import DemandPager.Proofs.Interrupts
import DemandPager.Proofs.Watching
import DemandPager.Proofs.Mirroring
