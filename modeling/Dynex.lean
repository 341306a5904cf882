import Dynex.Lib.ByteCodec
import Dynex.Lib.KeyedStore
import Dynex.Crypto.Types
import Dynex.Core.Basic
import Dynex.Core.Currency
import Dynex.Core.AmountText
import Dynex.Core.AmountTextProperties
import Dynex.Core.Checkpoints
import Dynex.Core.CheckpointsFile
import Dynex.Core.Blockchain.State
import Dynex.Common.StreamTools
import Dynex.Common.Varint
import Dynex.Serialization.BinarySerializer
import Dynex.Core.TransactionExtra
import Dynex.Core.TransactionExtraProperties
import Dynex.Core.BlockchainIndices
import Dynex.Core.TransactionPool
import Dynex.Core.TransactionPoolProperties
import Dynex.Core.TransactionPoolRemoval
import Dynex.Core.BlockTemplate
import Dynex.Core.BlockTemplateProperties
import Dynex.Core.DynexCNSerialization
import Dynex.Core.TransactionSerializationProperties
import Dynex.Core.BlockSerializationProperties
import Dynex.Core.Blockchain.Transactions
import Dynex.Core.Blockchain.TransactionsProperties
import Dynex.Core.Blockchain.Difficulty
import Dynex.Core.Blockchain.MainChain
import Dynex.Core.Blockchain.MainChainProperties
import Dynex.Core.Blockchain.BlockList
import Dynex.Core.Blockchain.Reorganization
import Dynex.Core.Blockchain.ReorganizationProperties
import Dynex.Core.Blockchain.Cache
import Dynex.Core.Blockchain.CacheProperties
import Dynex.Core.Blockchain.DifficultyProperties
import Dynex.Core.Node
import Dynex.Core.NodeProperties
import Dynex.Protocol.SyncHandler
import Dynex.Protocol.SyncHandlerProperties
import Dynex.Lib.MeteredReader
import Dynex.Lib.FallibleState
import Dynex.Common.JsonValue
import Dynex.Serialization.KVBinaryCommon
import Dynex.Serialization.KVBinaryInputStreamSerializer
import Dynex.Serialization.KVBinaryInputProperties
import Dynex.Serialization.ISerializer
import Dynex.Serialization.KVBinaryOutputStreamSerializer
import Dynex.Serialization.KVBinaryFormat
import Dynex.Serialization.JsonInputValueSerializer
import Dynex.Serialization.SerializationTools
import Dynex.Serialization.KVBinaryOutputProperties
import Dynex.Serialization.KVBinaryDecodeProperties
import Dynex.Serialization.JsonInputValueProperties
import Dynex.Serialization.KVBinaryRoundTrip
import Dynex.Lib.WideArithmetic
import Dynex.Common.IntUtil
import Dynex.Lib.FixedWidthDigits
import Dynex.Common.Base58
import Dynex.Common.Base58Properties
import Dynex.Common.Base64
import Dynex.Common.Base64Properties
import Dynex.Common.JsonText
import Dynex.Common.JsonTextProperties
import Dynex.Lib.MultiIndex
import Dynex.P2p.PeerListManager
import Dynex.P2p.PeerListManagerProperties
import Dynex.P2p.LevinProtocol
import Dynex.P2p.LevinProtocolProperties
import Dynex.Common.ShuffleGenerator
import Dynex.Common.StringTools
import Dynex.Wallet.SelectTransfers
import Dynex.Wallet.SelectTransfersProperties
import Dynex.Mnemonics.ElectrumWords
import Dynex.Mnemonics.WordLists
import Dynex.Mnemonics.ElectrumWordsProperties
import Dynex.Transfers.BlockchainSynchronizer
import Dynex.Transfers.BlockchainSynchronizerProperties
import Dynex.Lib.MerkleTree
import Dynex.Crypto.TreeHash
import Dynex.Crypto.TreeHashProperties
import Dynex.Core.Difficulty
import Dynex.Core.BlockReward
import Dynex.Core.DifficultyRetarget
import Dynex.Core.OutputOffsets
import Dynex.Core.NonPrivacy
import Dynex.Core.TransactionImpl
import Dynex.Core.TransactionImplProperties
import Dynex.Lib.DoublingSchedule
import Dynex.Core.BlockIndex
import Dynex.Core.BlockIndexProperties
import Dynex.Wallet.WalletSerializationV2
import Dynex.Wallet.WalletSerializationV2Properties
import Dynex.Core.BlockHash
import Dynex.Core.BlockHashProperties
import Dynex.Core.UpgradeDetector
import Dynex.Core.UpgradeDetectorProperties
import Dynex.Lib.TransitionSystem
import Dynex.Transfers.TransfersConsumer
import Dynex.Transfers.TransfersConsumerProperties
import Dynex.Transfers.TransfersContainer
import Dynex.Transfers.TransfersContainerProperties
import Dynex.Transfers.TransfersContainerInvariant
import Dynex.Transfers.TransfersContainerCalls
import Dynex.Transfers.TransfersContainerVisibility
import Dynex.Transfers.TransfersContainerBalance
import Dynex.Transfers.TransfersContainerDetach
import Dynex.Transfers.TransfersContainerRepair
