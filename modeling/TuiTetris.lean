import TuiTetris.LibRowStack
import TuiTetris.LibTransition
import TuiTetris.CoreTypes
import TuiTetris.CorePieces
import TuiTetris.CoreBoard
import TuiTetris.CoreBoardRows
import TuiTetris.CoreRng
import TuiTetris.CoreScoring
import TuiTetris.CoreGameState
import TuiTetris.CoreGameStateLoops
import TuiTetris.CoreGameStateEffects
import TuiTetris.CoreGameStateInvariant
import TuiTetris.CorePieceAccounting
import TuiTetris.CoreCellConservation
import TuiTetris.LibUnfold
import TuiTetris.CoreSevenBag
import TuiTetris.CoreHoldOutcome
import TuiTetris.CoreTimers
import TuiTetris.CoreLockResets
import TuiTetris.CoreBackToBack
import TuiTetris.CoreSnapshot
import TuiTetris.CoreStateHash
import TuiTetris.LibChecked
import TuiTetris.LibDuration
import TuiTetris.LibMeter
import TuiTetris.CoreChecked
import TuiTetris.CoreCheckedParts
import TuiTetris.CoreCheckedSafe
import TuiTetris.CoreLockScores
import TuiTetris.CoreScoreAccount
import TuiTetris.CoreEpisodes
import TuiTetris.CorePauses
import TuiTetris.SessionPlace
import TuiTetris.SessionPlaceCorrect
import TuiTetris.SessionPlaceChecked
import TuiTetris.CoreDescents
import TuiTetris.CoreGravity
import TuiTetris.CoreLiveness
import TuiTetris.LibArrayVec
import TuiTetris.SessionEngine
import TuiTetris.SessionMarks
import TuiTetris.SessionSnapshots
import TuiTetris.SessionEvents
import TuiTetris.LibText
import TuiTetris.LibDecimal
import TuiTetris.SessionReplay
import TuiTetris.SessionReplayRoundTrip
import TuiTetris.SessionReplayVerify
import TuiTetris.LibEncoding
import TuiTetris.SessionHashBytes
import TuiTetris.SessionFixedStep
import TuiTetris.AdapterBroker
import TuiTetris.AdapterBrokerControl
import TuiTetris.LibTerminal
import TuiTetris.TermFrameBuffer
import TuiTetris.TermRenderer
import TuiTetris.TermRendererScreen
import TuiTetris.TermDrawSwap
import TuiTetris.TermChangedRuns
import TuiTetris.LibLayers
import TuiTetris.TermGameView
import TuiTetris.TermPainting
import TuiTetris.TermGameViewPicture
import TuiTetris.TermPlayfield
import TuiTetris.TermInputHandler
import TuiTetris.TermAutoRepeat
import TuiTetris.TermInputMap
import TuiTetris.TermRenderThrottle
import TuiTetris.AdapterProtocol
import TuiTetris.AdapterObservation
import TuiTetris.AdapterCadence
import TuiTetris.AdapterGameLoop
import TuiTetris.AdapterStepIdentity
import TuiTetris.AdapterCommandFlow
import TuiTetris.AdapterDriver
import TuiTetris.AdapterMessages
import TuiTetris.LibLanguage
import TuiTetris.AdapterVersion
import TuiTetris.AdapterHandler
import TuiTetris.AdapterHandshake
import TuiTetris.AdapterAnswers
import TuiTetris.AdapterEmitStatus
import TuiTetris.AdapterMailbox
import TuiTetris.LibLatestSlot
import TuiTetris.AdapterDelivery
import TuiTetris.AdapterDeliveryOrder
import TuiTetris.LibFraming
import TuiTetris.AdapterLines
import TuiTetris.LibJson
import TuiTetris.LibJsonRecord
import TuiTetris.AdapterWire
import TuiTetris.AdapterInbound
import TuiTetris.AppObserve
import TuiTetris.AppObserveRun
import TuiTetris.AppCli
import TuiTetris.AppRunner
import TuiTetris.AppRunnerKeys
import TuiTetris.AppRunnerClock
