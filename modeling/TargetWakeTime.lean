import TargetWakeTime.Agreement.Basic
import TargetWakeTime.Agreement.ControlField
import TargetWakeTime.Agreement.Element
import TargetWakeTime.Agreement.Key
import TargetWakeTime.Agreement.RequestType
import TargetWakeTime.Agreement.SetupCommand
import TargetWakeTime.Agreement.SetupRequest
import TargetWakeTime.Agreement.State
import TargetWakeTime.Agreement.WakeInterval
import TargetWakeTime.Association
import TargetWakeTime.Bit
import TargetWakeTime.Error
import TargetWakeTime.Event
import TargetWakeTime.EventQueue
import TargetWakeTime.Hexadecimal
import TargetWakeTime.Host.Bus
import TargetWakeTime.Host.Channel
import TargetWakeTime.Host.Chip
import TargetWakeTime.Host.Command
import TargetWakeTime.Host.Error
import TargetWakeTime.Host.Header
import TargetWakeTime.Host.HostId
import TargetWakeTime.Host.Link
import TargetWakeTime.Host.PowerSave
import TargetWakeTime.Host.Response
import TargetWakeTime.Interface.Basic
import TargetWakeTime.Interface.LocalCall
import TargetWakeTime.Interface.Work
import TargetWakeTime.LittleEndian
import TargetWakeTime.MacAddress
import TargetWakeTime.Main
import TargetWakeTime.Negotiation.Answer
import TargetWakeTime.Negotiation.Basic
import TargetWakeTime.Negotiation.Flow
import TargetWakeTime.Negotiation.Handling
import TargetWakeTime.Negotiation.Report
import TargetWakeTime.Negotiation.Requester
import TargetWakeTime.Proofs.AddressText
import TargetWakeTime.Proofs.Agreement.Announcement
import TargetWakeTime.Proofs.Agreement.Grammar
import TargetWakeTime.Proofs.Agreement.Legible
import TargetWakeTime.Proofs.Agreement.LocalRequest
import TargetWakeTime.Proofs.Association
import TargetWakeTime.Proofs.EventQueue
import TargetWakeTime.Proofs.Host.Accounting
import TargetWakeTime.Proofs.Host.Attempts
import TargetWakeTime.Proofs.Host.Awake
import TargetWakeTime.Proofs.Host.Callers
import TargetWakeTime.Proofs.Host.Correlation
import TargetWakeTime.Proofs.Host.Declared
import TargetWakeTime.Proofs.Host.Execution
import TargetWakeTime.Proofs.Host.Framing
import TargetWakeTime.Proofs.Host.Halves
import TargetWakeTime.Proofs.Host.Joining
import TargetWakeTime.Proofs.Host.Linked
import TargetWakeTime.Proofs.Host.Listening
import TargetWakeTime.Proofs.Host.Numbering
import TargetWakeTime.Proofs.Host.Prompt
import TargetWakeTime.Proofs.Host.Session
import TargetWakeTime.Proofs.Host.Transmission
import TargetWakeTime.Proofs.Host.Unread
import TargetWakeTime.Proofs.Interface.Actions
import TargetWakeTime.Proofs.Interface.Agenda
import TargetWakeTime.Proofs.Interface.Assembly
import TargetWakeTime.Proofs.Interface.AssociationAnswer
import TargetWakeTime.Proofs.Interface.Bookkeeping
import TargetWakeTime.Proofs.Interface.Completion
import TargetWakeTime.Proofs.Interface.Handover
import TargetWakeTime.Proofs.Interface.Installation
import TargetWakeTime.Proofs.Interface.LocalOperation
import TargetWakeTime.Proofs.Interface.Mirror
import TargetWakeTime.Proofs.Interface.Rivals
import TargetWakeTime.Proofs.Interface.Staggered
import TargetWakeTime.Proofs.Negotiation.Alignment
import TargetWakeTime.Proofs.Negotiation.Asking
import TargetWakeTime.Proofs.Negotiation.Conservation
import TargetWakeTime.Proofs.Negotiation.Deferral
import TargetWakeTime.Proofs.Negotiation.Delivery
import TargetWakeTime.Proofs.Negotiation.Departure
import TargetWakeTime.Proofs.Negotiation.Fitting
import TargetWakeTime.Proofs.Negotiation.GrantedAgreements
import TargetWakeTime.Proofs.Negotiation.Granting
import TargetWakeTime.Proofs.Negotiation.Growth
import TargetWakeTime.Proofs.Negotiation.Guidance
import TargetWakeTime.Proofs.Negotiation.IdleStations
import TargetWakeTime.Proofs.Negotiation.Isolation
import TargetWakeTime.Proofs.Negotiation.NoOverlap
import TargetWakeTime.Proofs.Negotiation.OpenAnswers
import TargetWakeTime.Proofs.Negotiation.OpenConsiderations
import TargetWakeTime.Proofs.Negotiation.Outcome
import TargetWakeTime.Proofs.Negotiation.OwnFlows
import TargetWakeTime.Proofs.Negotiation.Recency
import TargetWakeTime.Proofs.Negotiation.Regrouping
import TargetWakeTime.Proofs.Negotiation.Reply
import TargetWakeTime.Proofs.Negotiation.Resolution
import TargetWakeTime.Proofs.Negotiation.ResolvedKeys
import TargetWakeTime.Proofs.Negotiation.Run
import TargetWakeTime.Proofs.Negotiation.ScheduledSlots
import TargetWakeTime.Proofs.Negotiation.Serving
import TargetWakeTime.Proofs.Negotiation.Solicitation
import TargetWakeTime.Proofs.Negotiation.Spacing
import TargetWakeTime.Proofs.Negotiation.Surroundings
import TargetWakeTime.Proofs.Negotiation.Teardown
import TargetWakeTime.Proofs.Negotiation.Transitions
import TargetWakeTime.Proofs.Negotiation.WaitingAnswers
import TargetWakeTime.Proofs.Runs
import TargetWakeTime.Proofs.Schedule.Filing
import TargetWakeTime.Proofs.Schedule.FirstFit
import TargetWakeTime.Proofs.Schedule.Lookup
import TargetWakeTime.Proofs.Schedule.Membership
import TargetWakeTime.Proofs.Schedule.Refusal
import TargetWakeTime.Proofs.Schedule.Ring
import TargetWakeTime.Proofs.Schedule.Succession
import TargetWakeTime.Proofs.Schedule.Sums
import TargetWakeTime.Proofs.Simulation.Accord
import TargetWakeTime.Proofs.Simulation.Addressing
import TargetWakeTime.Proofs.Simulation.Carrying
import TargetWakeTime.Proofs.Simulation.Cast
import TargetWakeTime.Proofs.Simulation.Consultation
import TargetWakeTime.Proofs.Simulation.Exchange
import TargetWakeTime.Proofs.Simulation.OverlapCount
import TargetWakeTime.Proofs.Simulation.Requests
import TargetWakeTime.Proofs.Simulation.Retransmission
import TargetWakeTime.Proofs.Simulation.Scene
import TargetWakeTime.Proofs.Simulation.Settling
import TargetWakeTime.Proofs.Simulation.Sketch
import TargetWakeTime.Proofs.Simulation.Turns
import TargetWakeTime.Proofs.StationTable
import TargetWakeTime.Schedule
import TargetWakeTime.ServicePeriod
import TargetWakeTime.Simulation.Bench
import TargetWakeTime.Simulation.ChipBench
import TargetWakeTime.Simulation.Elapsed
import TargetWakeTime.Simulation.Network
import TargetWakeTime.Simulation.Node
import TargetWakeTime.Simulation.Overlap
import TargetWakeTime.Simulation.Preset
import TargetWakeTime.Simulation.Scenario
import TargetWakeTime.Simulation.ScriptedLink
import TargetWakeTime.Simulation.World
import TargetWakeTime.Station
import TargetWakeTime.StationTable
import TargetWakeTime.TimeUnit
