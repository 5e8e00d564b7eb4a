import DeadcatNode.ActionWitness
import DeadcatNode.BackfillCalls
import DeadcatNode.BlindingScalars
import DeadcatNode.BlockCommitment
import DeadcatNode.ChainReads
import DeadcatNode.CovenantLineage
import DeadcatNode.LiveQuotes
import DeadcatNode.LocktimeConstraints
import DeadcatNode.MarketDiscovery
import DeadcatNode.QuoteIdempotency
import DeadcatNode.RecoveryCodec
import DeadcatNode.ReservationDeadlines
import DeadcatNode.SigningCoordinator
