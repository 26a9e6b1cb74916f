import Uniproc.Main
import Uniproc.Service.Basic
import Uniproc.File.Tree
import Uniproc.Proofs.Simulation.Accounting
import Uniproc.Proofs.Simulation.Isolation
import Uniproc.Proofs.Console
import Uniproc.Proofs.Simulation.Queueing
import Uniproc.Proofs.Simulation.Lineage
import Uniproc.Proofs.Simulation.Idleness
import Uniproc.Proofs.Starting
import Uniproc.Proofs.Machine.Usage
import Uniproc.Proofs.Machine.Widening
import Uniproc.Proofs.Machine.Outline
import Uniproc.Proofs.Simulation.Headroom
import Uniproc.Proofs.Simulation.Noninterference
import Uniproc.Proofs.Simulation.Replacement
import Uniproc.Proofs.Simulation.Forking
import Uniproc.Proofs.Sharing.Frame
import Uniproc.Proofs.Simulation.Telling
import Uniproc.Proofs.Simulation.Trace
import Uniproc.Proofs.Listing
import Uniproc.Proofs.Grammar
import Uniproc.Proofs.Service
import Uniproc.Proofs.Session
import Uniproc.Proofs.Simulation.Counters
import Uniproc.Proofs.Simulation.Draining
import Uniproc.Proofs.Simulation.Windows
import Uniproc.Proofs.Numbering
import Uniproc.Proofs.StateReport
import Uniproc.Proofs.LeadingInteger
import Uniproc.Proofs.Settings
