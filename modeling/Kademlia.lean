import Kademlia.Bucket.Challenge
import Kademlia.Bucket.Lemmas
import Kademlia.Config.File
import Kademlia.NodeId.Random
import Kademlia.NodeId.Value
import Kademlia.Proofs.Bounds
import Kademlia.Proofs.Recency
import Kademlia.Proofs.Admission
import Kademlia.Proofs.Flood
import Kademlia.Proofs.Ranking
import Kademlia.Proofs.Draws
import Kademlia.Proofs.Eclipse
import Kademlia.Proofs.Identity
import Kademlia.Proofs.Updates
import Kademlia.Proofs.Schedule
import Kademlia.Proofs.Freshness
import Kademlia.Proofs.HexText
import Kademlia.Proofs.Configuration
import Kademlia.Proofs.Observers
import Kademlia.Proofs.Vacancy
import Kademlia.Proofs.Readmission
import Kademlia.Proofs.Merging
import Kademlia.Proofs.Stability
import Kademlia.Proofs.Fairness
import Kademlia.Proofs.HexGrammar
import Kademlia.Bucket.Packet
import Kademlia.Proofs.Addresses
import Kademlia.Proofs.Metric
import Kademlia.Proofs.SharedPrefix
import Kademlia.Proofs.NumericOrder
import Kademlia.Proofs.Journal
import Kademlia.Proofs.Tally
import Kademlia.Proofs.Aging
import Kademlia.Proofs.PlainToml
import Kademlia.Proofs.ConfigText
