import CoverMosaic.Cover
import CoverMosaic.Design.Partition
import CoverMosaic.Listening.RankingJson
import CoverMosaic.Stores.Memory
import CoverMosaic.Proofs.Composition
import CoverMosaic.Proofs.Attribution
import CoverMosaic.Proofs.Noninterference
import CoverMosaic.Proofs.Equivalence
import CoverMosaic.Proofs.Words
import CoverMosaic.Proofs.Spellings
import CoverMosaic.Proofs.Backgrounds
import CoverMosaic.Proofs.Enclosure
import CoverMosaic.Proofs.Refusal
import CoverMosaic.Proofs.Cells
import CoverMosaic.Proofs.Streaming
import CoverMosaic.Proofs.Thumbnails
import CoverMosaic.Proofs.Addresses
import CoverMosaic.Proofs.Settling
import CoverMosaic.Proofs.DesignWords
