import Heartbeat.Http.Exchange
import Heartbeat.Main
import Heartbeat.Rehearsal
import Heartbeat.Simulation
import Heartbeat.Proofs.MainChain
import Heartbeat.Proofs.Pace
import Heartbeat.Proofs.Budget
import Heartbeat.Proofs.Undisturbed
import Heartbeat.Proofs.Confluence
import Heartbeat.Proofs.Answers
import Heartbeat.Proofs.Descriptors
import Heartbeat.Proofs.Histories
import Heartbeat.Proofs.Unheard
import Heartbeat.Proofs.Descriptions
import Heartbeat.Proofs.Elapse
import Heartbeat.Proofs.Refusals
import Heartbeat.Proofs.Parting
import Heartbeat.Proofs.Bursts
import Heartbeat.Proofs.Retries
import Heartbeat.Proofs.Deliveries
import Heartbeat.Proofs.Accounts
import Heartbeat.Proofs.Settlements
import Heartbeat.Proofs.Passage
import Heartbeat.Proofs.Redirections
import Heartbeat.Proofs.Addresses
import Heartbeat.Proofs.CommandLine.Agreement
import Heartbeat.Proofs.Launches
import Heartbeat.Proofs.Guards
